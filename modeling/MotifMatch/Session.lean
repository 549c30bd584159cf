import MotifMatch.Files.Tree
import MotifMatch.Random.Draw
import MotifMatch.Settings.Options

namespace MotifMatch

structure Session where
 streams : Streams
 settings : Settings
 files : Entry
 printed : Array String
 records : List Value
 progress : Nat := 0
 deriving Inhabited

abbrev Run := ExceptT Error (StateM Session)

namespace Run

def ofExcept {α : Type} : Except Error α → Run α
 | .ok a => return a
 | .error e => throw e

def draw {α : Type} (d : Draw α) : Run α := do
 let s ← get
 let (r,streams) := d.run.run s.streams
 set { s with streams }
 ofExcept r

def setting (name : String) : Run Value := do ofExcept ((← get).settings.get name)

def flag (name : String) : Run Bool := return (← setting name).truthy

def settingText (name : String) : Run String := do
 match ← setting name with
 | .str s => return s
 | _ => throw .wrongType

def shownSetting (name : String) : Run String := return (← setting name).text

def settingInt (name : String) : Run Int := do
 match (← setting name).toInt? with
 | some i => return i
 | none => throw .wrongType

def assign (name : String) (v : Value) : Run Unit :=
 modify fun s => { s with settings := s.settings.set name v }

def under {α : Type} (name : String) (v : Value) (action : Run α) : Run α := do
 let before := (← get).settings
 assign name v
 try
  let a ← action
  modify fun s => { s with settings := before }
  return a
 catch e => do
  modify fun s => { s with settings := before }
  throw e

def say (line : String) : Run Unit := modify fun s => { s with printed := s.printed.push line }

def entryAt (path : String) : Run Entry := do ofExcept ((← get).files.lookup path)

def pathExists (path : String) : Run Bool := return (← get).files.exists? path

def isFolder (path : String) : Run Bool := return (← get).files.isFolderAt path

def isFile (path : String) : Run Bool := return (← get).files.isFileAt path

def names (path : String) : Run (List String) := do ofExcept ((← get).files.names path)

def readText (path : String) : Run String := do
 match ← entryAt path with
 | .text s => return String.ofList (Text.unifyNewlines s.toList)
 | .stored _ => throw .badValue
 | .folder _ => throw .isADirectory

def writeEntry (path : String) (e : Entry) : Run Unit := do
 let s ← get
 let place ← ofExcept (s.files.resolve path)
 if Path.namesFolder path then throw .isADirectory
 match s.files.find place with
 | .ok (.folder _) => throw .isADirectory
 | _ => set { s with files := ← ofExcept (Entry.put e place s.files) }

def writeText (path text : String) : Run Unit := writeEntry path (.text text)

def appendText (path text : String) : Run Unit := do
 match (← get).files.lookup path with
 | .ok (.text old) => writeText path (old ++ text)
 | _ => writeText path text

def store (path : String) (x : Item) : Run Unit := writeEntry path (.stored x)

def fetch (path : String) : Run Item := do
 match ← entryAt path with
 | .stored x => return x
 | .text _ => throw .badValue
 | .folder _ => throw .isADirectory

def makeFolder (path : String) : Run Unit := do
 let s ← get
 let place ← ofExcept (s.files.resolve path)
 match s.files.find place with
 | .ok _ => throw .fileExists
 | .error _ => set { s with files := ← ofExcept (Entry.put (.folder []) place s.files) }

def makeAlong (top : Entry) : List String → List String → Except Error Entry
 | _, [] => .ok top
 | here, ".." :: rest => makeAlong top here.dropLast rest
 | here, name :: rest => do
  let here := here ++ [name]
  makeAlong (← top.makeFolders here) here rest

def makeFolders (path : String) : Run Unit := do
 let s ← get
 match Path.fromRoot? path with
 | some parts => set { s with files := ← ofExcept (makeAlong s.files [] parts) }
 | none => pure ()

def attempt (action : Run Unit) : Run Unit := do
 try action catch _ => pure ()

def ensureFolder (folder : String) : Run String := do
 let path := Path.ofProject folder
 unless ← isFolder path do
  for piece in (Text.splitOn ' ' path).filter fun s => s != "" do
   attempt (makeFolders piece)
 return path

def deletePath (path : String) (pretend : Bool) : Run Unit := do
 let s ← get
 match s.files.resolve path, s.files.lookup path with
 | .ok place, .ok (.folder _) =>
  let dotted := path == "." || path.endsWith "/."
  if pretend then say s!"Deleted directory: {path}"
  else if dotted then
   if let .ok files := Entry.put (.folder []) place s.files then set { s with files }
   say s!"Error deleting {path}: [Errno 22] Invalid argument: '{path}'"
  else
   set { s with files := s.files.remove place }
   say s!"Deleted directory: {path}"
 | .ok place, .ok _ =>
  unless pretend do set { s with files := s.files.remove place }
  say s!"Deleted file: {path}"
 | _, _ => say s!"Can't delete non existing path: {path}"

def deletePaths (paths : List String) (pretend : Bool) : Run Unit :=
 paths.forM fun p => deletePath p pretend

def namesIn (folder : String) (onlyFiles : Bool) : Run (List String) := do
 let all ← names folder
 if onlyFiles then
  all.filterM fun n => isFile (Path.join folder n)
 else return all

def apart (worker : Run Unit) : Run Unit := do
 let before := (← get).streams
 attempt worker
 modify fun s => { s with streams := before }

def report (count : Nat) : Run Unit := modify fun s => { s with progress := s.progress + count }

def seed (n : Int) : Run Unit := modify fun s => { s with streams := ⟨.seed n,.seed n⟩ }

end Run
end MotifMatch
