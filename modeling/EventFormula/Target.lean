import EventFormula.Scope
import EventFormula.Script

/-! The lowering settles what is called and in which order. A target settles how calls, accesses to
objects and parameters look in the language that is generated. -/

namespace EventFormula

structure Access where
  object : String
  behavior : Option String
  /-- What the platform says about the type of the object, or of the behavior. -/
  info : Option TypeInfo
  callName : String
  parameters : String

/-- All that a target keeps are the files to include, which `record` adds to. Its other replies
depend only on what they are given, so a target that changes as it is used is none of these. -/
structure Target where
  record : String → List String → List String
  parameterCodes : List Expression → List Parameter → Script (List String)
  /-- The objects that the name of an object or a group stands for. -/
  expand : String → View → List String
  currentCall : Access → Script String
  /-- The call on an object that nothing has picked; `otherwise` is for when there is none. -/
  otherCall : Access → (otherwise : String) → Script String
  escape : String → String
  quote : String → String := fun text => "\"" ++ escape text ++ "\""

/-- What a function has its calls replaced with, given all arguments of a call. -/
abbrev Hook := List Expression → Script String

/-- What stays the same during a lowering. -/
structure Generator where
  scope : Scope
  target : Target
  hooks : Table Hook

end EventFormula
