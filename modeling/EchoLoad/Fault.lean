import EchoLoad.Fault.Sentences

/-!
# System errors

What the operating system says when a call on a socket or a file fails. An error is either a kind on
its own or a numbered error of the system; the kind decides what a caller does, the text is what a
reader sees.
-/

namespace EchoLoad

/-- What went wrong, as far as a caller may act on it. -/
inductive ErrorKind
  | notFound
  | permissionDenied
  | connectionRefused
  | connectionReset
  | hostUnreachable
  | networkUnreachable
  | connectionAborted
  | notConnected
  | addressInUse
  | addressNotAvailable
  | networkDown
  | brokenPipe
  | alreadyExists
  | wouldBlock
  | notADirectory
  | isADirectory
  | directoryNotEmpty
  | readOnlyFilesystem
  | staleHandle
  | invalidInput
  | invalidData
  | timedOut
  | writeZero
  | storageFull
  | notSeekable
  | quotaExceeded
  | fileTooLarge
  | resourceBusy
  | fileBusy
  | deadlock
  | crossesDevices
  | tooManyLinks
  | invalidFilename
  | argumentListTooLong
  | interrupted
  | unsupported
  | unexpectedEof
  | outOfMemory
  | other
  | uncategorized
deriving DecidableEq, Repr

namespace ErrorKind

/-- The name of a kind, and the text of an error that has a kind and nothing more. -/
def description : ErrorKind → String × String
  | notFound => ("NotFound", "entity not found")
  | permissionDenied => ("PermissionDenied", "permission denied")
  | connectionRefused => ("ConnectionRefused", "connection refused")
  | connectionReset => ("ConnectionReset", "connection reset")
  | hostUnreachable => ("HostUnreachable", "host unreachable")
  | networkUnreachable => ("NetworkUnreachable", "network unreachable")
  | connectionAborted => ("ConnectionAborted", "connection aborted")
  | notConnected => ("NotConnected", "not connected")
  | addressInUse => ("AddrInUse", "address in use")
  | addressNotAvailable => ("AddrNotAvailable", "address not available")
  | networkDown => ("NetworkDown", "network down")
  | brokenPipe => ("BrokenPipe", "broken pipe")
  | alreadyExists => ("AlreadyExists", "entity already exists")
  | wouldBlock => ("WouldBlock", "operation would block")
  | notADirectory => ("NotADirectory", "not a directory")
  | isADirectory => ("IsADirectory", "is a directory")
  | directoryNotEmpty => ("DirectoryNotEmpty", "directory not empty")
  | readOnlyFilesystem => ("ReadOnlyFilesystem", "read-only filesystem or storage medium")
  | staleHandle => ("StaleNetworkFileHandle", "stale network file handle")
  | invalidInput => ("InvalidInput", "invalid input parameter")
  | invalidData => ("InvalidData", "invalid data")
  | timedOut => ("TimedOut", "timed out")
  | writeZero => ("WriteZero", "write zero")
  | storageFull => ("StorageFull", "no storage space")
  | notSeekable => ("NotSeekable", "seek on unseekable file")
  | quotaExceeded => ("QuotaExceeded", "quota exceeded")
  | fileTooLarge => ("FileTooLarge", "file too large")
  | resourceBusy => ("ResourceBusy", "resource busy")
  | fileBusy => ("ExecutableFileBusy", "executable file busy")
  | deadlock => ("Deadlock", "deadlock")
  | crossesDevices => ("CrossesDevices", "cross-device link or rename")
  | tooManyLinks => ("TooManyLinks", "too many links")
  | invalidFilename => ("InvalidFilename", "invalid filename")
  | argumentListTooLong => ("ArgumentListTooLong", "argument list too long")
  | interrupted => ("Interrupted", "operation interrupted")
  | unsupported => ("Unsupported", "unsupported")
  | unexpectedEof => ("UnexpectedEof", "unexpected end of file")
  | outOfMemory => ("OutOfMemory", "out of memory")
  | other => ("Other", "other error")
  | uncategorized => ("Uncategorized", "uncategorized error")

/-- The text of an error that has a kind and nothing more. -/
def text (k : ErrorKind) : String := k.description.2

/-- All kinds. -/
def all : List ErrorKind :=
  [notFound, permissionDenied, connectionRefused, connectionReset, hostUnreachable,
   networkUnreachable, connectionAborted, notConnected, addressInUse, addressNotAvailable,
   networkDown, brokenPipe, alreadyExists, wouldBlock, notADirectory, isADirectory,
   directoryNotEmpty, readOnlyFilesystem, staleHandle, invalidInput, invalidData, timedOut,
   writeZero, storageFull, notSeekable, quotaExceeded, fileTooLarge, resourceBusy,
   fileBusy, deadlock, crossesDevices, tooManyLinks, invalidFilename, argumentListTooLong,
   interrupted, unsupported, unexpectedEof, outOfMemory, other, uncategorized]

/-- The kind of a name. -/
def ofName? (name : String) : Option ErrorKind := all.find? fun k => k.description.1 = name

/-- The kind of a numbered system error. -/
def ofCode : Int → ErrorKind
  | 1 | 13 => permissionDenied
  | 2 => notFound
  | 4 => interrupted
  | 7 => argumentListTooLong
  | 11 => wouldBlock
  | 12 => outOfMemory
  | 16 => resourceBusy
  | 17 => alreadyExists
  | 18 => crossesDevices
  | 20 => notADirectory
  | 21 => isADirectory
  | 22 => invalidInput
  | 26 => fileBusy
  | 27 => fileTooLarge
  | 28 => storageFull
  | 29 => notSeekable
  | 30 => readOnlyFilesystem
  | 31 => tooManyLinks
  | 32 => brokenPipe
  | 35 => deadlock
  | 36 => invalidFilename
  | 38 | 95 => unsupported
  | 39 => directoryNotEmpty
  | 98 => addressInUse
  | 99 => addressNotAvailable
  | 100 => networkDown
  | 101 => networkUnreachable
  | 103 => connectionAborted
  | 104 => connectionReset
  | 107 => notConnected
  | 110 => timedOut
  | 111 => connectionRefused
  | 113 => hostUnreachable
  | 116 => staleHandle
  | 122 => quotaExceeded
  | _ => uncategorized

end ErrorKind

/-- An error of the system. -/
inductive SystemError
  /-- an error known by its kind alone -/
  | ofKind (kind : ErrorKind)
  /-- a numbered error -/
  | ofCode (code : Int)
  /-- an error with a text of its own -/
  | described (kind : ErrorKind) (text : String)
deriving DecidableEq, Repr

namespace SystemError

def kind : SystemError → ErrorKind
  | ofKind k => k
  | ofCode n => ErrorKind.ofCode n
  | described k _ => k

/-- The number of the error, if it has one. -/
def code? : SystemError → Option Int
  | ofCode n => some n
  | _ => none

def text : SystemError → String
  | ofKind k => k.text
  | ofCode n => errorSentence n ++ " (os error " ++ toString n ++ ")"
  | described _ t => t

end SystemError

/-- What a failed read asks for. -/
inductive ReadFault
  /-- nothing to read yet: wait until the socket is readable -/
  | transientRetry
  /-- a signal interrupted the call: read again -/
  | interrupted
  /-- a spurious bad-address error: read again -/
  | retryableFault
  /-- the peer reset the connection: close it -/
  | peerClosed
  /-- anything else: close the connection and report the error -/
  | other
deriving DecidableEq, Repr

/-- The number of the bad-address error, which some systems return from a read under load. -/
def badAddress : Int := 14

/-- What to do about a failed read. The spurious bad-address error has no kind of its own, so its
number is looked at first. -/
def ReadFault.ofError (e : SystemError) : ReadFault :=
  if e.code? = some badAddress then .retryableFault
  else match e.kind with
    | .wouldBlock => .transientRetry
    | .interrupted => .interrupted
    | .connectionReset => .peerClosed
    | _ => .other

end EchoLoad
