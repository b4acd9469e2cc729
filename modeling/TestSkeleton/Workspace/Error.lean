import TestSkeleton.Text.Quoted
import TestSkeleton.Text.Utf8

/-! Failures of file operations. -/

namespace TestSkeleton

inductive FileFault where
  | notFound
  | busy
  | alreadyExists
  | notFolder
  | isFolder
  | nameTooLong
  | linkLoop
  deriving DecidableEq, Repr

namespace FileFault

def number : FileFault → Nat
  | notFound => 2
  | busy => 16
  | alreadyExists => 17
  | notFolder => 20
  | isFolder => 21
  | nameTooLong => 36
  | linkLoop => 40

def description : FileFault → Text
  | notFound => "No such file or directory".toList
  | busy => "Device or resource busy".toList
  | alreadyExists => "File exists".toList
  | notFolder => "Not a directory".toList
  | isFolder => "Is a directory".toList
  | nameTooLong => "File name too long".toList
  | linkLoop => "Too many levels of symbolic links".toList

end FileFault

/-- A file operation that failed: why, on which path, and for a rename the path it aimed at. -/
structure FileError where
  fault : FileFault
  path : Text
  target : Option Text := none
  deriving DecidableEq, Repr

namespace FileError

def message (e : FileError) : Text :=
  "[Errno ".toList ++ Text.ofNat e.fault.number ++ "] ".toList ++ e.fault.description ++
    ": ".toList ++ Text.quoted e.path ++
    match e.target with
    | some t => " -> ".toList ++ Text.quoted t
    | none => []

end FileError

/-- Why a file yields no text. -/
inductive ReadError where
  | file (cause : FileError)
  | utf8 (cause : Utf8Error)
  deriving DecidableEq, Repr

namespace ReadError

def message : ReadError → Text
  | file cause => cause.message
  | utf8 cause => cause.message

end ReadError

end TestSkeleton
