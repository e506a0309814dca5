/-!
# Kinds of errors

The kinds of error that a caller may pass around as a value, and those that this library raises.
`ErrorKind.parents` gives the next more general kinds, so that a handler for one kind also answers
for those below it (`ErrorKind.isA`).
-/

namespace ContextLog

/-- What kind of error happened. -/
inductive ErrorKind
  | general
  | value
  | type
  | key
  | runtime
  | assertion
  | zeroDivision
  | noAttribute
  | overflow
  | memory
  | recursion
  | interrupt
  | exit
  | frozen
  | system
  | blocking
  | brokenPipe
  | childProcess
  | connectionAborted
  | connectionRefused
  | connectionReset
  | fileExists
  | fileNotFound
  | interrupted
  | isADirectory
  | notADirectory
  | permission
  | processLookup
  | timeout
  | log
  | invalidLevel
  | missingAppender
  | panic
  deriving DecidableEq, Repr, Inhabited

namespace ErrorKind

/-- The name of a kind. -/
def name : ErrorKind → String
  | general => "Exception"
  | value => "ValueError"
  | type => "TypeError"
  | key => "KeyError"
  | runtime => "RuntimeError"
  | assertion => "AssertionError"
  | zeroDivision => "ZeroDivisionError"
  | noAttribute => "AttributeError"
  | overflow => "OverflowError"
  | memory => "MemoryError"
  | recursion => "RecursionError"
  | interrupt => "KeyboardInterrupt"
  | exit => "SystemExit"
  | frozen => "FrozenInstanceError"
  | system => "OSError"
  | blocking => "BlockingIOError"
  | brokenPipe => "BrokenPipeError"
  | childProcess => "ChildProcessError"
  | connectionAborted => "ConnectionAbortedError"
  | connectionRefused => "ConnectionRefusedError"
  | connectionReset => "ConnectionResetError"
  | fileExists => "FileExistsError"
  | fileNotFound => "FileNotFoundError"
  | interrupted => "InterruptedError"
  | isADirectory => "IsADirectoryError"
  | notADirectory => "NotADirectoryError"
  | permission => "PermissionError"
  | processLookup => "ProcessLookupError"
  | timeout => "TimeoutError"
  | log => "LogError"
  | invalidLevel => "InvalidLevel"
  | missingAppender => "MissingAppender"
  | panic => "PanicError"

/-- The kinds directly above a kind. -/
def parents : ErrorKind → List ErrorKind
  | general | interrupt | exit => []
  | zeroDivision | overflow => [general]
  | recursion => [runtime]
  | frozen => [noAttribute]
  | blocking | brokenPipe | childProcess | connectionAborted | connectionRefused | connectionReset
  | fileExists | fileNotFound | interrupted | isADirectory | notADirectory | permission
  | processLookup | timeout => [system]
  | invalidLevel => [log, value]
  | missingAppender | panic => [log]
  | _ => [general]

/-- Does a handler for kind `k` answer for kind `a`? Three steps up reach every kind above it. -/
def isA (a k : ErrorKind) : Bool :=
  a = k || a.parents.any fun b => b = k || b.parents.any fun c => c = k || c.parents.contains k

/-- The kind of a system error by its number. -/
def ofErrorNumber? : Int → Option ErrorKind
  | 1 => some permission
  | 2 => some fileNotFound
  | 3 => some processLookup
  | 4 => some interrupted
  | 10 => some childProcess
  | 11 => some blocking
  | 13 => some permission
  | 17 => some fileExists
  | 20 => some notADirectory
  | 21 => some isADirectory
  | 32 => some brokenPipe
  | 103 => some connectionAborted
  | 104 => some connectionReset
  | 108 => some brokenPipe
  | 110 => some timeout
  | 111 => some connectionRefused
  | 114 => some blocking
  | 115 => some blocking
  | _ => none

end ErrorKind

end ContextLog
