import EventFormula.Proofs.Lowering.Scripts
import EventFormula.Proofs.Script.Local

/-!
# Blind scripts

A blind script does not see which lists have been needed so far. Unlike a local one it may see all
else, and it may change the current object. Carried out from two states that differ in nothing else
but that, it comes to the same value. The scripts of all targets and hooks that there are, are
blind.
-/

namespace EventFormula

namespace View

/-- The views differ at most in the lists that have been needed. -/
structure Alike (first second : View) : Prop where
  current : first.current = second.current
  depth : first.depth = second.depth
  maxDepth : first.maxDepth = second.maxDepth

end View

namespace Script

variable {σ α β : Type}

/-- The script does not see which lists have been needed. -/
def Blind : Script α → Prop
  | done _ => True
  | lowering _ _ next => ∀ result, (next result).Blind
  | including _ next => next.Blind
  | needing _ next => next.Blind
  | picking _ next => next.Blind
  | viewing next => (∀ view, (next view).Blind) ∧ ∀ v w : View, v.Alike w → next v = next w

theorem blind_bind {script : Script α} {f : α → Script β} (hs : script.Blind)
    (hf : ∀ value, (f value).Blind) : (script >>= f).Blind := by
  show (script.bind f).Blind
  induction script with
  | done value => exact hf value
  | lowering kind e next ih => exact fun result => ih result (hs result)
  | including path next ih => exact ih hs
  | needing object next ih => exact ih hs
  | picking object next ih => exact ih hs
  | viewing next ih =>
    constructor
    · intro view
      exact ih view (hs.1 view)
    · intro v w h
      simp only [hs.2 v w h]

theorem compositional_blind : Compositional Blind where
  done _ := trivial
  bind := blind_bind
  lower _ _ := fun _ => trivial
  require _ := trivial
  need _ := trivial
  view hf h := ⟨hf, fun v w halike => h v w halike.current⟩

/-- The handler answers two states that `R` relates in the same way, and leaves them related. -/
structure Handler.Respects (handler : Handler (StateM σ)) (R : σ → σ → Prop) : Prop where
  lower : ∀ kind e {s t}, R s t → (handler.lower kind e s).1 = (handler.lower kind e t).1 ∧
    R (handler.lower kind e s).2 (handler.lower kind e t).2
  require : ∀ {path s t}, R s t → R (handler.require path s).2 (handler.require path t).2
  need : ∀ {object s t}, R s t → R (handler.need object s).2 (handler.need object t).2
  setCurrent : ∀ {object s t}, R s t →
    R (handler.setCurrent object s).2 (handler.setCurrent object t).2
  view : ∀ {s t}, R s t → (handler.view s).1.Alike (handler.view t).1 ∧
    R (handler.view s).2 (handler.view t).2

/-- A blind script comes to the same value from related states, and leaves them related. -/
theorem Handler.Respects.run {handler : Handler (StateM σ)} {R : σ → σ → Prop}
    (respects : handler.Respects R) {script : Script α} (hs : script.Blind) {s t : σ}
    (hR : R s t) :
    (script.run handler s).1 = (script.run handler t).1 ∧
      R (script.run handler s).2 (script.run handler t).2 := by
  induction script generalizing s t with
  | done value => exact ⟨rfl, hR⟩
  | lowering kind e next ih =>
    obtain ⟨hvalue, hstate⟩ := respects.lower kind e hR
    simp only [run_lowering, ← hvalue]
    exact ih _ (hs _) hstate
  | including path next ih => exact ih hs (respects.require hR)
  | needing object next ih => exact ih hs (respects.need hR)
  | picking object next ih => exact ih hs (respects.setCurrent hR)
  | viewing next ih =>
    obtain ⟨halike, hstate⟩ := respects.view hR
    simp only [run_viewing, ← hs.2 _ _ halike]
    exact ih _ (hs.1 _) hstate

end Script

/-- Even the hook that changes the current object only looks at how deep lowerings are nested. -/
theorem Hook.blind_pick (arguments : List Expression) : (pick arguments).Blind := by
  refine ⟨fun _ => trivial, fun v w halike => ?_⟩
  show Script.done ("picked@" ++ toString v.depth ++ "/" ++ toString v.maxDepth) = Script.done _
  rw [halike.depth, halike.maxDepth]

theorem Hook.blind_catalogue {name : String} {hook : Hook}
    (h : catalogue.get? name = some hook) (arguments : List Expression) :
    (hook arguments).Blind :=
  compositional_catalogue Script.compositional_blind blind_pick h arguments

end EventFormula
