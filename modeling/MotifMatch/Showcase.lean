import MotifMatch.Session

namespace MotifMatch.Showcase
open Run

inductive Variant where
 | one
 | two
 deriving DecidableEq, Repr

def Variant.text : Variant → String
 | .one => "1"
 | .two => "2"

def Variant.ofFactory? : String → Option Variant
 | "ConcreteFactory1" => some .one
 | "ConcreteFactory2" => some .two
 | _ => none

def firstProduct (v : Variant) : String := s!"The result of the product A{v.text}."

def secondProduct (v : Variant) : String := s!"The result of the product B{v.text}."

def together (second first : Variant) : String :=
 s!"The result of the B{second.text} collaborating with the ({firstProduct first})"

def useFactory (v : Variant) : Run Unit := do
 say (secondProduct v)
 say (together v v)

def tour : Run Unit := do
 say "Client: Testing client code with the first factory type:"
 useFactory .one
 say ""
 say "Client: Testing the same client code with the second factory type:"
 useFactory .two

def tryFactories (factory other : String) : Run (List String) := do
 match Variant.ofFactory? factory, Variant.ofFactory? other with
 | some v, some w => do
  useFactory v
  return [firstProduct v,secondProduct v,together v w]
 | _, _ => throw .wrongType

end MotifMatch.Showcase
