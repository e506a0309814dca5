/-!
# Levels

Six severities in a fixed order, `panic` the most and `debug` the least severe. A lower rank is the
more severe one, so an entry passes a threshold when its level is at most the threshold.

`Level.ofRank?_rank` and `Level.rank_of_ofRank?`: ranks and levels are the same thing.
-/

namespace ContextLog

/-- The severity of an entry, most severe first. -/
inductive Level
  | panic
  | fatal
  | error
  | warn
  | info
  | debug
  deriving DecidableEq, Repr, Inhabited

namespace Level

/-- Every level, from most to least severe. -/
def all : List Level := [panic, fatal, error, warn, info, debug]

/-- The position of a level in `all`: 0 is the most severe. -/
def rank : Level → Nat
  | panic => 0
  | fatal => 1
  | error => 2
  | warn => 3
  | info => 4
  | debug => 5

/-- The level at a rank. -/
def ofRank? : Int → Option Level
  | 0 => some panic
  | 1 => some fatal
  | 2 => some error
  | 3 => some warn
  | 4 => some info
  | 5 => some debug
  | _ => none

/-- The name shown for a level. -/
def name : Level → String
  | panic => "PANIC"
  | fatal => "FATAL"
  | error => "ERROR"
  | warn => "WARN"
  | info => "INFO"
  | debug => "DEBUG"

/-- Levels are ordered by rank. -/
instance : LE Level := ⟨fun a b => a.rank ≤ b.rank⟩

instance : LT Level := ⟨fun a b => a.rank < b.rank⟩

instance (a b : Level) : Decidable (a ≤ b) := inferInstanceAs (Decidable (a.rank ≤ b.rank))

instance (a b : Level) : Decidable (a < b) := inferInstanceAs (Decidable (a.rank < b.rank))

/-- The number a level has in a numbered logging back end, where a larger number is the more
severe one and the two most severe levels are one. -/
def backendNumber : Level → Nat
  | panic => 50
  | fatal => 50
  | error => 40
  | warn => 30
  | info => 20
  | debug => 10

/-- The method of a structured logger that records an entry of a level. -/
def methodName : Level → String
  | panic => "critical"
  | fatal => "critical"
  | error => "error"
  | warn => "warning"
  | info => "info"
  | debug => "debug"

/-- The words that name a level in settings and on the command line. -/
def words : List (String × Level) :=
  [("panic", panic), ("fatal", fatal), ("error", error), ("warn", warn), ("warning", warn),
    ("info", info), ("debug", debug)]

theorem lt_def {a b : Level} : a < b ↔ a.rank < b.rank := .rfl

theorem ofRank?_rank (l : Level) : ofRank? l.rank = some l := by
  cases l <;> rfl

theorem rank_of_ofRank? {n : Int} {l : Level} (h : ofRank? n = some l) : n = l.rank := by
  unfold ofRank? at h
  split at h <;> simp_all [rank] <;> subst h <;> rfl

theorem rank_injective {a b : Level} (h : a.rank = b.rank) : a = b := by
  have hb := ofRank?_rank b
  rw [← h, ofRank?_rank a] at hb
  exact Option.some.inj hb

end Level

end ContextLog
