import EventFormula.Failure

/-! A script is a piece of code generation that has not been carried out: a tree of requests, each
with what follows for every answer to it. Targets and hooks are written as scripts, so they can use
what a request offers and touch nothing else. -/

namespace EventFormula

/-- What a script can see of the lowering that it is part of. -/
structure View where
  current : Option String
  needed : List String
  depth : Nat
  maxDepth : Nat

inductive Script (α : Type) where
  | done (value : α)
  | lowering (kind : Expression.Kind) (e : Expression) (next : Except Failure String → Script α)
  | including (path : String) (next : Script α)
  | needing (object : String) (next : Script α)
  | picking (object : Option String) (next : Script α)
  | viewing (next : View → Script α)

namespace Script

variable {α β : Type}

def bind : Script α → (α → Script β) → Script β
  | done value, f => f value
  | lowering kind e next, f => lowering kind e fun result => (next result).bind f
  | including path next, f => including path (next.bind f)
  | needing object next, f => needing object (next.bind f)
  | picking object next, f => picking object (next.bind f)
  | viewing next, f => viewing fun view => (next view).bind f

instance : Monad Script where
  pure := done
  bind := bind

def lower (kind : Expression.Kind) (e : Expression) : Script (Except Failure String) :=
  lowering kind e done

def require (path : String) : Script Unit := including path (done ())

def need (object : String) : Script Unit := needing object (done ())

def setCurrent (object : Option String) : Script Unit := picking object (done ())

def view : Script View := viewing done

/-- The script made for each of the values, one after the other. -/
def each (f : α → Script β) : List α → Script (List β)
  | [] => done []
  | value :: values => do
    let first ← f value
    let rest ← each f values
    return first :: rest

/-- How requests are met. -/
structure Handler (m : Type → Type) where
  lower : Expression.Kind → Expression → m (Except Failure String)
  require : String → m Unit
  need : String → m Unit
  setCurrent : Option String → m Unit
  view : m View

variable {m : Type → Type} [Monad m]

def run (handler : Handler m) : Script α → m α
  | done value => pure value
  | lowering kind e next => do run handler (next (← handler.lower kind e))
  | including path next => do handler.require path; run handler next
  | needing object next => do handler.need object; run handler next
  | picking object next => do handler.setCurrent object; run handler next
  | viewing next => do run handler (next (← handler.view))

theorem bind_assoc {γ : Type} (s : Script α) (f : α → Script β) (g : β → Script γ) :
    (s.bind f).bind g = s.bind fun value => (f value).bind g := by
  induction s with
  | done value => rfl
  | lowering kind e next ih => simp only [bind]; congr 1; funext result; exact ih result
  | including path next ih => simp only [bind, ih]
  | needing object next ih => simp only [bind, ih]
  | picking object next ih => simp only [bind, ih]
  | viewing next ih => simp only [bind]; congr 1; funext view; exact ih view

theorem run_bind [LawfulMonad m] (handler : Handler m) (s : Script α) (f : α → Script β) :
    (s.bind f).run handler = s.run handler >>= fun value => (f value).run handler := by
  induction s with
  | done value => simp [bind, run]
  | lowering kind e next ih => simp [bind, run, ih]
  | including path next ih => simp [bind, run, ih]
  | needing object next ih => simp [bind, run, ih]
  | picking object next ih => simp [bind, run, ih]
  | viewing next ih => simp [bind, run, ih]

end Script
end EventFormula
