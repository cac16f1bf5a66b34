import EventFormula.Platform

/-! The platform that is used when none is described. -/

namespace EventFormula.Platform

def toStringHook : String := "ToString"

def toNumberHook : String := "ToNumber"

def numbersFunction (callName : String) (arity : Nat) : Callable where
  callName := callName
  parameters := List.replicate arity ⟨.number, false, false, "", ""⟩

def getter (callName : String) : Callable where
  callName := callName
  parameters := [⟨.object, false, false, "", ""⟩]

def conversion (hook : String) (argument : ParameterKind) : Callable where
  generation := .custom hook
  parameters := [⟨argument, false, false, "", ""⟩]

/-- A random number below an optional limit; the scene is passed along unseen. -/
def random : Callable where
  callName := "gdjs.random"
  includeFile := some "runtime/random.js"
  parameters := [⟨.code, false, true, "runtimeScene", ""⟩, ⟨.number, true, false, "1", ""⟩]

def builtin : Platform where
  name := "js"
  functions :=
    { numeric := .ofList
        [("Abs", numbersFunction "Math.abs" 1), ("Sqrt", numbersFunction "Math.sqrt" 1),
          ("Sin", numbersFunction "Math.sin" 1), ("Cos", numbersFunction "Math.cos" 1),
          ("Round", numbersFunction "Math.round" 1), ("Min", numbersFunction "Math.min" 2),
          ("Max", numbersFunction "Math.max" 2), ("Random", random),
          ("ToNumber", conversion toNumberHook .string)]
      text := .ofList [("ToString", conversion toStringHook .number)] }
  objects := .ofList
    [(baseObjectType,
      { functions :=
          { numeric := .ofList
              [("X", getter "getX"), ("Y", getter "getY"), ("Angle", getter "getAngle")]
            text := .ofList [("Name", getter "getName")] } })]

end EventFormula.Platform
