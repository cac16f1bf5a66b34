import EventFormula.Hook
import EventFormula.Lowering
import EventFormula.Target.Symbolic

/-!
# Scripts made of scripts

The script for a formula is put together from the scripts of the target and of the hooks, with
requests of its own that look at nothing but the current object. So a property that composition
keeps holds of the whole once it holds of these. The targets and the hooks that there are ask for
nothing else either, but for the one hook that makes its argument the current object.
-/

namespace EventFormula

/-- The property holds of requests, and of scripts that go on with such scripts. A script that looks
around may go by the current object alone. -/
structure Script.Compositional (P : {α : Type} → Script α → Prop) : Prop where
  done : ∀ {α : Type} (value : α), P (.done value)
  bind : ∀ {α β : Type} {script : Script α} {f : α → Script β}, P script →
    (∀ value, P (f value)) → P (script >>= f)
  lower : ∀ kind e, P (.lower kind e)
  require : ∀ path, P (.require path)
  need : ∀ object, P (.need object)
  view : ∀ {α : Type} {f : View → Script α}, (∀ view, P (f view)) →
    (∀ v w : View, v.current = w.current → f v = f w) → P (Script.view >>= f)

namespace Script.Compositional

variable {P : {α : Type} → Script α → Prop} (hP : Compositional P)
include hP

theorem each {α β : Type} {f : α → Script β} (hf : ∀ value, P (f value)) (values : List α) :
    P (Script.each f values) := by
  induction values with
  | nil => exact hP.done []
  | cons value values ih => exact hP.bind (hf value) fun _ => hP.bind ih fun _ => hP.done _

theorem requireFile (file : Option String) : P (Generator.requireFile file) := by
  unfold Generator.requireFile
  split
  · split
    · exact hP.done ()
    · exact hP.require _
  · exact hP.done ()

end Script.Compositional

namespace Fragment

variable (generator : Generator)

/-- Events shown to a fragment. -/
def shown (events : List Event) (fragment : Fragment) : Script (Except Failure Unit × Fragment) :=
  (Trace.visitEvents (fun event => fun fragment : Fragment => fragment.visit generator event)
    events : StateT Fragment Script _).run fragment

theorem shown_cons (event : Event) (events : List Event) (fragment : Fragment) :
    shown generator (event :: events) fragment = fragment.visit generator event >>= fun answer =>
      match answer.1 with
      | .ok () => shown generator events answer.2
      | .error failure => .done (.error failure, answer.2) := by
  show (fragment.visit generator event).bind _ = (fragment.visit generator event).bind _
  congr 1
  funext ⟨result, next⟩
  cases result <;> rfl

theorem visit_argument (fragment : Fragment) (kind : Expression.Kind) (e : Expression) :
    fragment.visit generator (.argument kind e) = Script.lower kind e >>= fun result =>
      match result with
      | .ok _ => .done (.ok (), fragment)
      | .error failure => .done (.error failure, fragment.note failure) := by
  show Script.lowering kind e _ = Script.lowering kind e _
  congr 1
  funext result
  cases result <;> rfl

theorem ofTrace_eq (trace : Trace) :
    ofTrace generator trace = shown generator trace.events {} >>= fun answer =>
      .done (answer.2.finish (answer.1.bind fun _ => trace.result)) := by
  refine (Script.bind_assoc _ _ _).trans ?_
  show (shown generator trace.events {}).bind _ = (shown generator trace.events {}).bind _
  congr 1
  funext ⟨result, next⟩
  cases result <;> rfl

/-- There is code only if all events were accepted. -/
theorem shown_ok_of_finish {fragment : Fragment} {shown read : Except Failure Unit} {code : String}
    (h : fragment.finish (shown.bind fun _ => read) = .ok code) : shown = .ok () := by
  cases shown with
  | ok value => rfl
  | error failure =>
    rw [finish] at h
    split at h <;> cases h

end Fragment

namespace Generator

/-- The property holds of the scripts of the target and of the hooks, and what a name stands for
depends on the current object alone. -/
structure Provides (generator : Generator) (P : {α : Type} → Script α → Prop) : Prop where
  parameterCodes : ∀ arguments parameters, P (generator.target.parameterCodes arguments parameters)
  expand : ∀ name (v w : View), v.current = w.current →
    generator.target.expand name v = generator.target.expand name w
  currentCall : ∀ access, P (generator.target.currentCall access)
  otherCall : ∀ access otherwise, P (generator.target.otherCall access otherwise)
  hook : ∀ {name hook}, generator.hooks.get? name = some hook → ∀ arguments, P (hook arguments)

namespace Provides

variable {P : {α : Type} → Script α → Prop} {generator : Generator}
  (hg : generator.Provides P) (hP : Script.Compositional P)
include hg hP

theorem foldAccesses (output : String) (accesses : List Access) :
    P (generator.foldAccesses output accesses) := by
  induction accesses generalizing output with
  | nil => exact hP.done output
  | cons access accesses ih =>
    refine hP.bind (hP.need _) fun _ => ?_
    refine hP.bind (hP.requireFile _) fun _ => ?_
    refine hP.view (fun view => ?_) fun v w h => by simp only [h]
    split
    · exact hP.bind (hg.currentCall access) ih
    · exact hP.bind (hg.otherCall access output) ih

theorem accessCode (name : String) (access : String → Access) (returns : Expression.Kind) :
    P (generator.accessCode name access returns) :=
  hP.view (fun _ => hg.foldAccesses hP _ _) fun v w h => by simp only [hg.expand name v w h]

theorem parametersCode (arguments : List Expression) (parameters : List Parameter) :
    P (generator.parametersCode arguments parameters) :=
  hP.bind (hg.parameterCodes arguments parameters) fun _ => hP.done _

omit hP in
theorem hookOf {callable : Callable} {hook : Hook} (h : generator.hookOf callable = some hook)
    (arguments : List Expression) : P (hook arguments) := by
  obtain ⟨name, -, hname⟩ := Option.bind_eq_some_iff.1 h
  exact hg.hook hname arguments

theorem callCode (call : Call) : P (generator.callCode call) := by
  unfold Generator.callCode
  cases call.form with
  | free =>
    refine hP.bind (hP.requireFile _) fun _ => ?_
    split
    · rename_i hook hhook
      exact hg.hookOf hhook call.arguments
    · split
      · exact hP.done _
      · exact hP.bind (hg.parametersCode hP _ _) fun _ => hP.done _
  | object =>
    show P (generator.objectCall call)
    unfold objectCall
    split
    · exact hP.done ""
    · refine hP.bind (hP.requireFile _) fun _ => ?_
      split
      · rename_i hook hhook
        exact hg.hookOf hhook call.arguments
      · exact hP.bind (hg.parametersCode hP _ _) fun _ => hg.accessCode hP _ _ _
  | behavior =>
    show P (generator.behaviorCall call)
    unfold behaviorCall
    split
    · refine hP.bind (hP.requireFile _) fun _ => ?_
      split
      · rename_i hook hhook
        exact hg.hookOf hhook call.arguments
      · exact hP.bind (hg.parametersCode hP _ _) fun _ => hg.accessCode hP _ _ _
    · exact hP.done ""

theorem visit (fragment : Fragment) (event : Event) : P (fragment.visit generator event) := by
  cases event with
  | constant text => exact hP.done _
  | operator text => exact hP.done _
  | number text => exact hP.done _
  | argument kind e =>
    rw [Fragment.visit_argument]
    refine hP.bind (hP.lower kind e) fun result => ?_
    cases result <;> exact hP.done _
  | call call => exact hP.bind (hg.callCode hP call) fun _ => hP.done _

theorem shown (events : List Event) (fragment : Fragment) :
    P (Fragment.shown generator events fragment) := by
  induction events generalizing fragment with
  | nil => exact hP.done _
  | cons event events ih =>
    rw [Fragment.shown_cons]
    refine hP.bind (hg.visit hP fragment event) fun answer => ?_
    split
    · exact ih answer.2
    · exact hP.done _

/-- Whatever the expression is, the property holds of lowering it. -/
theorem script (kind : Expression.Kind) (e : Expression) : P (generator.script kind e) := by
  rw [Generator.script, Fragment.ofTrace_eq]
  exact hP.bind (hg.shown hP _ _) fun _ => hP.done _

end Provides
end Generator

section Known
variable {P : {α : Type} → Script α → Prop} (hP : Script.Compositional P)
include hP

namespace JavaScript

theorem compositional_expressionCode (kind : Expression.Kind) (e : Expression) :
    P (expressionCode kind e) := by
  unfold expressionCode
  split
  · exact hP.done _
  · refine hP.bind (hP.lower kind e) fun result => ?_
    cases result <;> exact hP.done _

theorem compositional_parameterCode (argument : Expression) (parameter : Option Parameter) :
    P (parameterCode argument parameter) := by
  unfold parameterCode
  split
  · exact compositional_expressionCode hP _ _
  · exact compositional_expressionCode hP _ _
  · exact hP.done _
  · exact hP.done _
  · exact hP.done _

theorem compositional_parameterCodes (arguments : List Expression) (parameters : List Parameter) :
    P (parameterCodes arguments parameters) := by
  induction arguments generalizing parameters with
  | nil => exact hP.done _
  | cons argument arguments ih =>
    exact hP.bind (compositional_parameterCode hP _ _) fun _ =>
      hP.bind (ih _) fun _ => hP.done _

theorem compositional_firstCode (kind : Expression.Kind) (arguments : List Expression) :
    P (firstCode kind arguments) := by
  cases arguments with
  | nil => exact hP.done _
  | cons argument _ => exact compositional_expressionCode hP kind argument

theorem compositional_toStringHook (arguments : List Expression) : P (toStringHook arguments) :=
  hP.bind (compositional_firstCode hP .number arguments) fun _ => hP.done _

theorem compositional_toNumberHook (arguments : List Expression) : P (toNumberHook arguments) :=
  hP.bind (compositional_firstCode hP .text arguments) fun _ => hP.done _

/-- The JavaScript target provides what the hooks do. -/
theorem provides_target (scope : Scope) {hooks : Table Hook}
    (hhooks : ∀ {name hook}, hooks.get? name = some hook → ∀ arguments, P (hook arguments)) :
    (Generator.mk scope (target scope) hooks).Provides P where
  parameterCodes := compositional_parameterCodes hP
  expand name v w h := by simp only [target, h]
  currentCall _ := hP.done _
  otherCall _ _ := hP.done _
  hook h := hhooks h

end JavaScript

namespace Symbolic

theorem compositional_parameterCode (argument : Expression) (parameter : Parameter) :
    P (parameterCode argument parameter) := by
  unfold parameterCode
  split
  · refine hP.bind (hP.lower _ argument) fun result => ?_
    cases result <;> exact hP.done _
  · exact hP.done _

/-- So does the symbolic target. -/
theorem provides_target (scope : Scope) (expansions : Expansions) {hooks : Table Hook}
    (hhooks : ∀ {name hook}, hooks.get? name = some hook → ∀ arguments, P (hook arguments)) :
    (Generator.mk scope (target expansions) hooks).Provides P where
  parameterCodes _ _ := hP.each (fun _ => compositional_parameterCode hP _ _) _
  expand _ _ _ _ := rfl
  currentCall _ := hP.done _
  otherCall _ _ := hP.done _
  hook h := hhooks h

end Symbolic

namespace Hook

theorem compositional_lowered (word : String) (kind : Expression.Kind)
    (arguments : List Expression) : P (lowered word kind arguments) := by
  refine hP.bind (hP.each (fun e => ?_) arguments) fun _ => hP.done _
  refine hP.bind (hP.lower kind e) fun result => ?_
  cases result <;> exact hP.done _

end Hook
end Known

/-- A table holds nothing but the entries that it was made of. -/
theorem Table.mem_of_get?_ofList {α : Type} {entries : List (String × α)} {name : String}
    {value : α} (h : (Table.ofList entries).get? name = some value) : (name, value) ∈ entries := by
  have hfold (entries : List (String × α)) (table : Table α)
      (h : (entries.foldl (fun table entry => table.insert entry.1 entry.2) table).get? name
        = some value) : (name, value) ∈ entries ∨ table.get? name = some value := by
    induction entries generalizing table with
    | nil => exact Or.inr h
    | cons entry entries ih =>
      rcases ih (table.insert entry.1 entry.2) h with hmem | h
      · exact Or.inl (List.mem_cons_of_mem _ hmem)
      · by_cases hname : name = entry.1
        · subst hname
          rw [Table.get?_insert_self] at h
          cases h
          exact Or.inl List.mem_cons_self
        · rw [Table.get?_insert_of_ne table entry.2 hname] at h
          exact Or.inr h
  rcases hfold entries .empty h with hmem | hnone
  · exact hmem
  · cases hnone

/-- Of the hooks that there are only one does anything but lower its arguments. -/
theorem Hook.compositional_catalogue {P : {α : Type} → Script α → Prop}
    (hP : Script.Compositional P) (hpick : ∀ arguments, P (pick arguments)) {name : String}
    {hook : Hook} (h : catalogue.get? name = some hook) (arguments : List Expression) :
    P (hook arguments) := by
  have hmem := Table.mem_of_get?_ofList h
  simp only [List.mem_cons, Prod.mk.injEq, List.not_mem_nil, or_false] at hmem
  rcases hmem with ⟨-, rfl⟩ | ⟨-, rfl⟩ | ⟨-, rfl⟩ | ⟨-, rfl⟩ | ⟨-, rfl⟩ | ⟨-, rfl⟩ | ⟨-, rfl⟩
  · exact hP.done _
  · exact hP.done _
  · exact compositional_lowered hP _ _ _
  · exact compositional_lowered hP _ _ _
  · exact hpick arguments
  · exact JavaScript.compositional_toStringHook hP arguments
  · exact JavaScript.compositional_toNumberHook hP arguments

end EventFormula
