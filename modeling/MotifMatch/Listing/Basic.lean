import MotifMatch.Graph.Basic

namespace MotifMatch.Listing

def rows (text : String) : List (List String) :=
 (Text.lines text).map fun l => Text.splitOn ' ' (Text.stripString l)

def column (cols : List String) (i : Nat) : Except Error String :=
 match cols[i]? with
 | some s => .ok s
 | none => .error .indexOutOfRange

def number (s : String) : Except Error Int :=
 match Text.int? s with
 | some i => .ok i
 | none => .error .badValue

def columnNumber (cols : List String) (i : Nat) : Except Error Int := do number (← column cols i)

def lastColumn (cols : List String) : String := cols.getLast?.getD ""

def firstColumn (cols : List String) : String := cols.head?.getD ""

def endsHere (cols : List String) : Bool := lastColumn cols == "-1"

def labelled (i : Int) : Attrs := .ofList [("label",.int i)]

abbrev Graphs := Table Int Graph

structure Reading where
 done : Graphs
 open? : Option Graph
 number : Int

def Reading.close (s : Reading) : Graphs :=
 match s.open? with
 | some g => s.done.put s.number g
 | none => s.done

def Reading.current (s : Reading) : Except Error Graph :=
 match s.open? with
 | some g => .ok g
 | none => .error .missingAttribute

def readRows (directed : Bool) : List (List String) → Reading → Except Error Graphs
 | [], s => .ok s.close
 | cols :: rest, s => do
  match firstColumn cols with
  | "t" =>
   let done := s.close
   if endsHere cols then return done
   readRows directed rest ⟨done,some (.empty directed),← columnNumber cols 2⟩
  | "v" =>
   let g ← s.current
   let n ← columnNumber cols 1
   let label ← columnNumber cols 2
   readRows directed rest { s with open? := some (g.addNode (.num n) (labelled label)) }
  | "e" =>
   let g ← s.current
   let u ← columnNumber cols 1
   let v ← columnNumber cols 2
   let label ← columnNumber cols 3
   readRows directed rest { s with open? := some (g.addEdge (.num u) (.num v) (labelled label)) }
  | _ => readRows directed rest s

def graphs (directed : Bool) (text : String) : Except Error Graphs :=
 readRows directed (rows text) ⟨.empty,none,0⟩

structure Survey where
 graphs : Graphs
 sizes : Table Int Nat
 degrees : Table Int Float
 anchor : Option Int

structure Surveying where
 done : Survey
 open? : Option Graph
 number : Int

def meanDegree (g : Graph) : Except Error Float :=
 if g.size = 0 then .error .divisionByZero
 else .ok (Float.ofNat (2 * g.edges.length) / Float.ofNat g.size)

def Surveying.close (s : Surveying) : Except Error Survey :=
 match s.open? with
 | some g => do
  let degree ← meanDegree g
  return { s.done with
    graphs := s.done.graphs.put s.number g
    sizes := s.done.sizes.put s.number g.size
    degrees := s.done.degrees.put s.number degree }
 | none => .ok s.done

def Surveying.current (s : Surveying) : Except Error Graph :=
 match s.open? with
 | some g => .ok g
 | none => .error .missingAttribute

def surveyRows (directed : Bool) (limit : Int) : List (List String) → Surveying → Except Error Survey
 | [], s => s.close
 | cols :: rest, s => do
  match firstColumn cols with
  | "t" =>
   let done ← s.close
   if endsHere cols then return done
   let number ← columnNumber cols 2
   if 0 < limit && limit ≤ number then return done
   surveyRows directed limit rest ⟨done,some (.empty directed),number⟩
  | "p" =>
   let anchor ← number (lastColumn cols)
   surveyRows directed limit rest { s with done := { s.done with anchor := some anchor } }
  | "v" =>
   let n ← columnNumber cols 1
   let label ← columnNumber cols 2
   let g ← s.current
   surveyRows directed limit rest { s with open? := some (g.addNode (.num n) (labelled label)) }
  | "e" =>
   let u ← columnNumber cols 1
   let v ← columnNumber cols 2
   let g ← s.current
   let label ← columnNumber cols 3
   let (low,high) := if u < v then (u,v) else (v,u)
   surveyRows directed limit rest { s with open? := some (g.addEdge (.num low) (.num high) (labelled label)) }
  | _ => surveyRows directed limit rest s

def survey (directed : Bool) (limit : Int) (text : String) : Except Error Survey :=
 surveyRows directed limit (rows text) ⟨⟨.empty,.empty,.empty,none⟩,none,0⟩

structure MapReading where
 done : Table Int (Table Int Int)
 open? : Option (Table Int Int)
 number : Int

def MapReading.close (s : MapReading) : Table Int (Table Int Int) :=
 match s.open? with
 | some m => s.done.put s.number m
 | none => s.done

def mapRows (forward : Bool) : List (List String) → MapReading →
 Except Error (Table Int (Table Int Int))
 | [], s => .ok s.close
 | cols :: rest, s => do
  match firstColumn cols with
  | "t" =>
   let done := s.close
   if endsHere cols then return done
   mapRows forward rest ⟨done,some .empty,← columnNumber cols 2⟩
  | "v" =>
   let value ← columnNumber cols (if forward then 2 else 1)
   let key ← columnNumber cols (if forward then 1 else 2)
   match s.open? with
   | none => throw .wrongType
   | some m => mapRows forward rest { s with open? := some (m.put key value) }
  | _ => mapRows forward rest s

def mappings (forward : Bool) (text : String) : Except Error (Table Int (Table Int Int)) :=
 mapRows forward (rows text) ⟨.empty,none,0⟩

structure PairReading where
 done : Table Int (List (Int × Int))
 open? : Option (List (Int × Int))
 number : Int

def PairReading.close (s : PairReading) : Table Int (List (Int × Int)) :=
 match s.open? with
 | some m => s.done.put s.number m
 | none => s.done

def pairRows (limit : Int) : List (List String) → PairReading →
 Except Error (Table Int (List (Int × Int)))
 | [], s => .ok s.close
 | cols :: rest, s => do
  match firstColumn cols with
  | "t" =>
   let done := s.close
   if endsHere cols then return done
   let number ← columnNumber cols 2
   if 0 < limit && limit ≤ number then return done
   pairRows limit rest ⟨done,some [],number⟩
  | "v" =>
   match s.open? with
   | none => throw .missingAttribute
   | some m =>
    let a ← columnNumber cols 1
    let b ← columnNumber cols 2
    pairRows limit rest { s with open? := some (m ++ [(a,b)]) }
  | _ => pairRows limit rest s

def pairs (limit : Int) (text : String) : Except Error (Table Int (List (Int × Int))) :=
 pairRows limit (rows text) ⟨.empty,none,0⟩

end MotifMatch.Listing
