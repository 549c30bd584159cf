import MotifMatch.Settings.Options

namespace MotifMatch.Launch
open CommandLine

def options : List Choice := [
 ⟨"name",.text,.none⟩,
 ⟨"neo4j_host",.text,.str "neo4j:"⟩,
 ⟨"source",.text,.none⟩,
 ⟨"language",.text,.none⟩,
 ⟨"depth",.whole,.int 10⟩,
 ⟨"model",.text,.str "CPG_augm_large"⟩,
 ⟨"patterns",.text,.str "dpdf"⟩,
 ⟨"directed",.switch,.bool true⟩]

def commands (words : List String) : Except Error (List String) := do
 let s ← parse options words
 let text (name : String) : Except Error String := return (← s.get name).text
 let name ← text "name"
 let host ← text "neo4j_host"
 let source ← text "source"
 let language ← text "language"
 let depth ← text "depth"
 let patterns ← text "patterns"
 let model ← text "model"
 let directed := if (← s.get "directed").truthy then "--directed" else ""
 return [
  "docker exec graph-generation sh -c \"java -jar generation/build/libs/generation-develop.jar " ++
   s!"--source={source} --name={name} --language={language} --depth={depth} " ++
    s!"--neo4j-host={host}\"",
  s!"docker exec graph-matching sh -c \"python matching/main.py --name={name} " ++
   s!"--pattern_dataset={patterns} --model={model} {directed} " ++ s!"--neo4j_host={host}\""]

end MotifMatch.Launch
