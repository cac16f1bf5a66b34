import EventFormula.Script

/-!
# Local scripts

A local script sees nothing of the lowering that it is part of but the current object, and leaves
that object alone. Carried out by two handlers that answer alike, it comes to the same value,
however much else the states of the handlers differ. The lowerings that a script asks for are
collected in `Asks`, so that a statement about a run can speak of all of them.
-/

namespace EventFormula.Script

variable {σ τ α β : Type}

section Run
variable (handler : Handler (StateM σ)) (s : σ)

@[simp] theorem run_lowering (kind : Expression.Kind) (e : Expression)
    (next : Except Failure String → Script α) :
    (lowering kind e next).run handler s =
      (next (handler.lower kind e s).1).run handler (handler.lower kind e s).2 := rfl

@[simp] theorem run_viewing (next : View → Script α) :
    (viewing next).run handler s =
      (next (handler.view s).1).run handler (handler.view s).2 := rfl

theorem run_then (script : Script α) (f : α → Script β) :
    (script >>= f).run handler s =
      (f (script.run handler s).1).run handler (script.run handler s).2 := by
  show (script.bind f).run handler s = _
  rw [run_bind]
  rfl

end Run

/-- Every lowering that the script asks for, once carried out from a state, is asked for in a state
as `P` says. -/
def Asks (handler : Handler (StateM σ)) (P : Expression.Kind → Expression → σ → Prop) :
    Script α → σ → Prop
  | done _, _ => True
  | lowering kind e next, s =>
    P kind e s ∧ (next (handler.lower kind e s).1).Asks handler P (handler.lower kind e s).2
  | including path next, s => next.Asks handler P (handler.require path s).2
  | needing object next, s => next.Asks handler P (handler.need object s).2
  | picking object next, s => next.Asks handler P (handler.setCurrent object s).2
  | viewing next, s => (next (handler.view s).1).Asks handler P (handler.view s).2

instance decidableAsks (handler : Handler (StateM σ))
    {P : Expression.Kind → Expression → σ → Prop} [∀ kind e s, Decidable (P kind e s)] :
    (script : Script α) → (s : σ) → Decidable (script.Asks handler P s)
  | done _, _ => .isTrue trivial
  | lowering kind e next, s =>
    letI := decidableAsks handler (P := P) (next (handler.lower kind e s).1)
      (handler.lower kind e s).2
    inferInstanceAs (Decidable (_ ∧ _))
  | including path next, s => decidableAsks handler next (handler.require path s).2
  | needing object next, s => decidableAsks handler next (handler.need object s).2
  | picking object next, s => decidableAsks handler next (handler.setCurrent object s).2
  | viewing next, s => decidableAsks handler (next (handler.view s).1) (handler.view s).2

/-- The script sees only the current object and does not change it. -/
def Local : Script α → Prop
  | done _ => True
  | lowering _ _ next => ∀ result, (next result).Local
  | including _ next => next.Local
  | needing _ next => next.Local
  | picking _ _ => False
  | viewing next =>
    (∀ view, (next view).Local) ∧ ∀ v w : View, v.current = w.current → next v = next w

theorem local_bind {script : Script α} {f : α → Script β} (hs : script.Local)
    (hf : ∀ value, (f value).Local) : (script >>= f).Local := by
  show (script.bind f).Local
  induction script with
  | done value => exact hf value
  | lowering kind e next ih => exact fun result => ih result (hs result)
  | including path next ih => exact ih hs
  | needing object next ih => exact ih hs
  | picking object next ih => exact False.elim hs
  | viewing next ih =>
    constructor
    · intro view
      exact ih view (hs.1 view)
    · intro v w h
      simp only [hs.2 v w h]

/-- Two handlers answer alike: lowerings that are asked for as `P` says end in the same way, the
same object is current, and states that are related stay so. -/
structure Handler.Alike (first : Handler (StateM σ)) (second : Handler (StateM τ))
    (P : Expression.Kind → Expression → σ → Prop) (R : σ → τ → Prop) : Prop where
  lower : ∀ {kind e s t}, P kind e s → R s t →
    (first.lower kind e s).1 = (second.lower kind e t).1 ∧
      R (first.lower kind e s).2 (second.lower kind e t).2
  require : ∀ {path s t}, R s t → R (first.require path s).2 (second.require path t).2
  need : ∀ {object s t}, R s t → R (first.need object s).2 (second.need object t).2
  view : ∀ {s t}, R s t → (first.view s).1.current = (second.view t).1.current ∧
    R (first.view s).2 (second.view t).2

/-- Handlers that answer alike carry a local script to the same value and to related states. -/
theorem run_alike {first : Handler (StateM σ)} {second : Handler (StateM τ)}
    {P : Expression.Kind → Expression → σ → Prop} {R : σ → τ → Prop}
    (alike : first.Alike second P R) {script : Script α} {s : σ} {t : τ} (hl : script.Local)
    (asks : script.Asks first P s) (hR : R s t) :
    (script.run first s).1 = (script.run second t).1 ∧
      R (script.run first s).2 (script.run second t).2 := by
  induction script generalizing s t with
  | done value => exact ⟨rfl, hR⟩
  | lowering kind e next ih =>
    obtain ⟨hvalue, hstate⟩ := alike.lower asks.1 hR
    simp only [run_lowering, ← hvalue]
    exact ih _ (hl _) asks.2 hstate
  | including path next ih => exact ih hl asks (alike.require hR)
  | needing object next ih => exact ih hl asks (alike.need hR)
  | picking object next ih => exact False.elim hl
  | viewing next ih =>
    obtain ⟨hcurrent, hstate⟩ := alike.view hR
    simp only [run_viewing, ← hl.2 _ _ hcurrent]
    exact ih _ (hl.1 _) asks hstate

/-- The handler keeps what `I` says of its state, as long as lowerings are asked for as `P` says. -/
structure Handler.Keeps (handler : Handler (StateM σ))
    (P : Expression.Kind → Expression → σ → Prop) (I : σ → Prop) : Prop where
  lower : ∀ {kind e s}, P kind e s → I s → I (handler.lower kind e s).2
  require : ∀ {path s}, I s → I (handler.require path s).2
  need : ∀ {object s}, I s → I (handler.need object s).2
  view : ∀ {s}, I s → I (handler.view s).2

/-- Whatever is asked for, the handler keeps what `I` says of its state. -/
structure Handler.Preserves (handler : Handler (StateM σ)) (I : σ → Prop) : Prop where
  lower : ∀ {kind e s}, I s → I (handler.lower kind e s).2
  require : ∀ {path s}, I s → I (handler.require path s).2
  need : ∀ {object s}, I s → I (handler.need object s).2
  setCurrent : ∀ {object s}, I s → I (handler.setCurrent object s).2
  view : ∀ {s}, I s → I (handler.view s).2

theorem Handler.Preserves.run {handler : Handler (StateM σ)} {I : σ → Prop}
    (preserves : handler.Preserves I) (script : Script α) {s : σ} (hI : I s) :
    I (script.run handler s).2 := by
  induction script generalizing s with
  | done value => exact hI
  | lowering kind e next ih => exact ih _ (preserves.lower hI)
  | including path next ih => exact ih (preserves.require hI)
  | needing object next ih => exact ih (preserves.need hI)
  | picking object next ih => exact ih (preserves.setCurrent hI)
  | viewing next ih => exact ih _ (preserves.view hI)

/-- What the handler keeps can be used at every lowering that the script asks for. -/
theorem Asks.imp {handler : Handler (StateM σ)} {P Q : Expression.Kind → Expression → σ → Prop}
    {I : σ → Prop} (keeps : handler.Keeps P I) (himp : ∀ kind e s, I s → P kind e s → Q kind e s)
    {script : Script α} {s : σ} (hl : script.Local) (asks : script.Asks handler P s) (hI : I s) :
    script.Asks handler Q s := by
  induction script generalizing s with
  | done value => exact trivial
  | lowering kind e next ih =>
    exact ⟨himp kind e s hI asks.1, ih _ (hl _) asks.2 (keeps.lower asks.1 hI)⟩
  | including path next ih => exact ih hl asks (keeps.require hI)
  | needing object next ih => exact ih hl asks (keeps.need hI)
  | picking object next ih => exact False.elim hl
  | viewing next ih => exact ih _ (hl.1 _) asks (keeps.view hI)

end EventFormula.Script
