import MotifMatch.Launch

def main (words : List String) : IO UInt32 := do
 match MotifMatch.Launch.commands words with
 | .ok commands => do
  for c in commands do IO.println c
  return 0
 | .error (.usage code) => return code.toUInt32
 | .error _ => return 1
