/-! Why the system refuses a file. Every refusal has a number, a kind, a name and a text. -/
namespace ChipEight

/-- What failures of reading are told apart by. A source of bytes may fail with any of them, the system
with those that it has a reason for. -/
inductive IoKind
  | notFound | permissionDenied | connectionRefused | connectionReset | hostUnreachable
  | networkUnreachable | connectionAborted | notConnected | addrInUse | addrNotAvailable | networkDown
  | brokenPipe | alreadyExists | wouldBlock | notADirectory | isADirectory | directoryNotEmpty
  | readOnlyFilesystem | filesystemLoop | staleNetworkFileHandle | invalidInput | invalidData | timedOut
  | writeZero | storageFull | notSeekable | quotaExceeded | fileTooLarge | resourceBusy
  | executableFileBusy | deadlock | crossesDevices | tooManyLinks | invalidFilename
  | argumentListTooLong | interrupted | unsupported | unexpectedEof | outOfMemory | inProgress | other
  | uncategorized
  deriving DecidableEq

inductive SystemError
  | notFound | permissionDenied | notADirectory | isADirectory | nameTooLong
  deriving DecidableEq

namespace SystemError

def code : SystemError → Nat
  | notFound => 2 | permissionDenied => 13 | notADirectory => 20 | isADirectory => 21
  | nameTooLong => 36

def kind : SystemError → IoKind
  | notFound => .notFound
  | permissionDenied => .permissionDenied
  | notADirectory => .notADirectory
  | isADirectory => .isADirectory
  | nameTooLong => .invalidFilename

def name : SystemError → String
  | notFound => "NotFound"
  | permissionDenied => "PermissionDenied"
  | notADirectory => "NotADirectory"
  | isADirectory => "IsADirectory"
  | nameTooLong => "InvalidFilename"

def text : SystemError → String
  | notFound => "No such file or directory"
  | permissionDenied => "Permission denied"
  | notADirectory => "Not a directory"
  | isADirectory => "Is a directory"
  | nameTooLong => "File name too long"

def message (e : SystemError) : String := e.text ++ " (os error " ++ e.code.repr ++ ")"

def summary (e : SystemError) : String :=
  "Os \x7b code: " ++ e.code.repr ++ ", kind: " ++ e.name ++ ", message: \x22" ++ e.text ++ "\x22 \x7d"

theorem code_injective {d e : SystemError} (h : d.code = e.code) : d = e := by
  cases d <;> cases e <;> first | rfl | cases h

end SystemError

end ChipEight
