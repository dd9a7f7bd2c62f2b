import LetScript.Fault
import LetScript.Text.Utf8

/-
  What can go wrong with a script that is run from a file: the file cannot be read, or the script
  has a fault.
-/

namespace LetScript

/-- Why a file cannot be read as text. -/
inductive ReadFault
  | notFound
  | denied
  | notFolder
  | isFolder
  | nameTooLong
  | nullInName
  | undecodable (fault : Text.Utf8.Fault)
  | other (code : Nat) (reason : String)

/-- Why running a file gave no value. -/
inductive Failure
  | reading (path : String) (fault : ReadFault)
  | script (fault : Fault)

/-- The wording of a reason. -/
def Text.Utf8.Reason.text : Text.Utf8.Reason → String
  | .invalidStart => "invalid start byte"
  | .invalidContinuation => "invalid continuation byte"
  | .endOfData => "unexpected end of data"

/-- The wording of undecodable bytes. One bad byte is shown, of several the places. -/
def Text.Utf8.Fault.message (f : Text.Utf8.Fault) : String :=
  "'utf-8' codec can't decode " ++
  (if f.first = f.last then
    "byte 0x" ++ String.ofList ((Nat.toDigits 16 f.byte.toNat).leftpad 2 '0') ++ " in position " ++
      toString f.first
  else "bytes in position " ++ toString f.first ++ "-" ++ toString f.last) ++
  ": " ++ f.reason.text

namespace ReadFault

/-- The name under which a fault of reading is reported. -/
def title : ReadFault → String
  | .notFound => "FileNotFoundError"
  | .denied => "PermissionError"
  | .notFolder => "NotADirectoryError"
  | .isFolder => "IsADirectoryError"
  | .nullInName => "ValueError"
  | .undecodable _ => "UnicodeDecodeError"
  | .nameTooLong | .other .. => "OSError"

/-- The wording of a system error on a path. -/
def systemText (code : Nat) (reason path : String) : String :=
  "[Errno " ++ toString code ++ "] " ++ reason ++ ": " ++ Text.quoted path

/-- The message about a path. -/
def message (path : String) : ReadFault → String
  | .notFound => systemText 2 "No such file or directory" path
  | .denied => systemText 13 "Permission denied" path
  | .notFolder => systemText 20 "Not a directory" path
  | .isFolder => systemText 21 "Is a directory" path
  | .nameTooLong => systemText 36 "File name too long" path
  | .nullInName => "embedded null byte"
  | .undecodable f => f.message
  | .other code reason => systemText code reason path

end ReadFault

namespace Failure

/-- The name under which a failure is reported. -/
def title : Failure → String
  | .reading _ f => f.title
  | .script f => f.cause.title

/-- The message. -/
def message : Failure → String
  | .reading path f => f.message path
  | .script f => f.message

/-- Whether a command reports the failure; the others escape it. -/
def isReported : Failure → Bool
  | .reading _ .nullInName => false
  | .reading .. => true
  | .script f => f.cause.ancestry.contains "LetlangError"

/-- The line that a command reports. -/
def report (f : Failure) : String := f.title ++ ": " ++ f.message ++ "\n"

end Failure

end LetScript
