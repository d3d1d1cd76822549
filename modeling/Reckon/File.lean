import Reckon.Token.Scan

/-!
# Files

What there is to know of a file that is read once: its text, or why there is none.

* `File.source?`: a file as a source.
-/

namespace Reckon

/-- What trying to read a file gives. -/
inductive File
  | unopened (reason : String)
  | unread (reason : String)
  | text (chars : List Char)
deriving DecidableEq, Repr

namespace File

/-- A file that does not exist. -/
def missing : File := .unopened "no such file or directory"

/-- A directory, which can be opened and not read. -/
def directory : File := .unread "is a directory"

/-- Why a file with a path cannot be opened. -/
def openError (path reason : String) : String := "open " ++ path ++ ": " ++ reason

/-- Why a file with a path cannot be read. -/
def readError (path reason : String) : String := "read " ++ path ++ ": " ++ reason

/-- The file with a path as a source. One that cannot be read is a source that breaks at once. -/
def source? (path : String) : File → Except String Source
  | unopened reason => .error (openError path reason)
  | unread reason => .ok ⟨path, [], .broken (readError path reason)⟩
  | text chars => .ok ⟨path, chars, .clean⟩

end File

end Reckon
