/-!
# Files of the command line

What a command may learn when it reads a file, and a directory of files that is
held in memory.
-/

namespace Stencil

/-- Why a file has no text. -/
inductive FileError where
  | noSuchFile
  | notDirectory
  | isDirectory
  /-- Any other reason, in the words of the system. -/
  | unreadable (reason : String)
  deriving DecidableEq, Repr, Inhabited

namespace FileError

/-- What the system says about a file without a text. -/
def message : FileError → String
  | .noSuchFile => "No such file or directory (os error 2)"
  | .notDirectory => "Not a directory (os error 20)"
  | .isDirectory => "Is a directory (os error 21)"
  | .unreadable reason => reason

/-- Whether the path leads to nothing at all. -/
def isAbsence : FileError → Bool
  | .noSuchFile => true
  | .notDirectory => true
  | _ => false

end FileError

/-- Reading files, in a monad of which nothing else is known. -/
abbrev FileReader (m : Type → Type) : Type :=
  String → m (Except FileError String)

/-- The files of a directory by name; names with slashes lie in directories of
their own. -/
structure Directory where
  files : List (String × String)
  deriving DecidableEq, Repr, Inhabited

/-- The pieces of a text between slashes. -/
def splitSlashes : List Char → List (List Char)
  | [] => [[]]
  | character :: rest =>
      if character = '/' then
        [] :: splitSlashes rest
      else
        match splitSlashes rest with
        | [] => [[character]]
        | first :: others => (character :: first) :: others

namespace Directory

def stepsOf (path : String) : List (List Char) :=
  (splitSlashes path.toList).filter fun step => step ≠ [] ∧ step ≠ ['.']

/-- Whether the last step of a path says that it leads to a directory. -/
def namesDirectory (path : String) : Bool :=
  match (splitSlashes path.toList).getLast? with
  | some step => step == [] || step == ['.']
  | none => true

def fileAt? (directory : Directory) (steps : List (List Char)) : Option String :=
  (directory.files.find? fun file => stepsOf file.1 == steps).map Prod.snd

def isDirectoryAt (directory : Directory) (steps : List (List Char)) : Bool :=
  steps.isEmpty || directory.files.any fun file =>
    steps.isPrefixOf (stepsOf file.1) && steps.length < (stepsOf file.1).length

def leavesFile (directory : Directory) (steps : List (List Char)) : Bool :=
  directory.files.any fun file =>
    (stepsOf file.1).isPrefixOf steps && (stepsOf file.1).length < steps.length

/-- Read a file.  Of what lies outside the directory only its parents are
known. -/
def read (directory : Directory) (path : String) : Except FileError String :=
  let steps := stepsOf path
  if path = "" then .error .noSuchFile
  else if steps.all (· == ['.', '.']) && steps != [] then .error .isDirectory
  else if path.startsWith "/" then
    .error (if steps.isEmpty then .isDirectory else .noSuchFile)
  else if directory.isDirectoryAt steps then .error .isDirectory
  else
    match directory.fileAt? steps with
    | some text =>
        if namesDirectory path then .error .notDirectory else .ok text
    | none =>
        .error (if directory.leavesFile steps then .notDirectory else .noSuchFile)

end Directory

end Stencil
