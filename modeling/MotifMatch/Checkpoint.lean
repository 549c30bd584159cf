import MotifMatch.Session
import MotifMatch.Value.Json

namespace MotifMatch.Checkpoint
open Run MotifMatch.Path

def datasetName : Run Value := do
 let dataset ← setting "dataset"
 if ← Run.flag "directed" then Run.ofExcept (dataset.add (.str "_directed")) else return dataset

def nameOf (dataset : String) (directed anchored : Bool) (tag : Option String) (version : String) :
 String :=
 dataset ++ "_" ++ (if directed then "directed" else "undirected") ++
  (if anchored then "_anchored" else "") ++
  (match tag with | some t => "_" ++ t | none => "") ++ "_v" ++ version

def name (version : Value) (tag : Option String) : Run String := do
 if ← Run.ofExcept (version.less (.int 1)) then
  say s!"model version can't be smaller then 1, but got: {version.text}"
  throw .badValue
 return nameOf (← shownSetting "dataset") (← flag "directed") (← flag "anchored") tag version.text

def lastVersion (present : List String) : Nat → Nat → String → Nat
 | 0, version, _ => version
 | n + 1, version, current =>
  let next := Text.replace s!"v{version}" s!"v{version + 1}" current
  if present.contains next then lastVersion present n (version + 1) next else version

def folder : Run String := return ofProject (← settingText "ckpt_dir")

def latest (tag : Option String) : Run Int := do
 let first ← name (.int 1) tag
 let present ← names (← folder)
 if present.contains first then return lastVersion present (present.length + 1) 1 first else return -1

def folderOf (model : String) : Run String := return join (← folder) model

def parametersOf (model : String) : Run String := return join (← folderOf model) "model.pt"

def settingsFileOf (model : String) : Run String := return join (← folderOf model) "args.json"

def saveSettings (model : String) : Run Unit := do
 let file ← settingsFileOf model
 let entries := (← get).settings.table.entries.filter fun e => !e.1.startsWith "__"
 let text ← Run.ofExcept (Json.render (.dict (entries.map fun e => (.str e.1,e.2))))
 writeText (ofProject file) text

def loadSettings (model : String) : Run Unit := do
 let file ← settingsFileOf model
 match ← Run.ofExcept (Json.parse (← Run.readText (Path.ofProject file))) with
 | .dict kvs =>
  for e in kvs do assign e.1.text e.2
  assign "ckpt_path" (.str (← parametersOf model))
 | _ => throw .missingAttribute

end MotifMatch.Checkpoint
