/-! Reading files as text. In a directory that is given by all that is in it a path is followed name
by name: an empty name and a point stay where they are, two points go back, and all three need a
directory to stand on. -/

namespace EventFormula

inductive ReadError where
  | missing
  | directory
  /-- The path goes through something that is no directory. -/
  | notDirectory
  | tooLong
  | denied
  /-- The bytes are no UTF-8. -/
  | notText
  | other (report : String)
deriving DecidableEq

def ReadError.message : ReadError → String
  | missing => "No such file or directory (os error 2)"
  | directory => "Is a directory (os error 21)"
  | notDirectory => "Not a directory (os error 20)"
  | tooLong => "File name too long (os error 36)"
  | denied => "Permission denied (os error 13)"
  | notText => "stream did not contain valid UTF-8"
  | other report => report

abbrev Files := String → Except ReadError String

def decodeText (bytes : ByteArray) : Except ReadError String :=
  match String.fromUTF8? bytes with
  | some text => .ok text
  | none => .error .notText

inductive Entry where
  | file (bytes : ByteArray)
  | directory

def Entry.read : Entry → Except ReadError String
  | file bytes => decodeText bytes
  | directory => .error .directory

structure Directory where
  /-- Every entry and the names that lead to it, the last one first. -/
  entries : List (List String × Entry)

namespace Directory

def maxName : Nat := 255

def maxPath : Nat := 4095

/-- The names of a path, empty ones included. -/
def names (path : String) : List String := (path.toList.splitOn '/').map String.ofList

def ofList (entries : List (String × Entry)) : Directory :=
  ⟨entries.map fun entry => ((names entry.1).reverse, entry.2)⟩

/-- What is at a place. A place that leads to an entry, or is where all paths start, is a
directory. -/
def find? (directory : Directory) (place : List String) : Option Entry :=
  match directory.entries.find? fun entry => entry.1 == place with
  | some (_, entry) => some entry
  | none =>
    if place.isEmpty || directory.entries.any fun entry => place.isSuffixOf entry.1 then
      some .directory
    else none

def stays (name : String) : Bool := name == "" || name == "."

def absent (name : String) : ReadError :=
  if maxName < name.utf8ByteSize then .tooLong else .missing

def followOutside : List String → Except ReadError String
  | [] => .error .directory
  | name :: names =>
    if stays name || name == ".." then followOutside names else .error (absent name)

def follow (directory : Directory) (place : List String) : List String → Except ReadError String
  | [] => (directory.find? place).elim (.error .missing) Entry.read
  | name :: names =>
    match directory.find? place with
    | none => .error .missing
    | some (.file _) => .error .notDirectory
    | some .directory =>
      if stays name then directory.follow place names
      else if name = ".." then
        match place with
        | [] => followOutside names
        | _ :: outer => directory.follow outer names
      else if maxName < name.utf8ByteSize then .error .tooLong
      else directory.follow (name :: place) names

/-- The text of each file that a path names, seen from the directory. -/
def files (directory : Directory) : Files := fun path =>
  if path = "" then .error .missing
  else if maxPath < path.utf8ByteSize then .error .tooLong
  else
    match path.toList with
    | '/' :: _ => followOutside (names path)
    | _ => directory.follow [] (names path)

end Directory
end EventFormula
