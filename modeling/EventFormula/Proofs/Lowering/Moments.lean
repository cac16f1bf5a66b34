import EventFormula.Proofs.Lowering.Course

/-!
# The moments of a lowering

Deeds are what changes a context: a lowering begins, finishes or is settled, the list of an object
is needed, another object is picked. A moment is a deed with the context that it leaves, and the
moments of a lowering are all of them, those of the lowerings inside it included. The main statement
is `course_lowerWithin`: they form a course, in which each context is the one before it with the
deed done, a lowering begins only below the limit, and only the innermost one that is going on
finishes.
-/

namespace EventFormula

/-- What is done to a context. -/
inductive Deed where
  | begin (kind : Expression.Kind) (e : Expression)
  | finish (kind : Expression.Kind) (e : Expression)
  | settle (kind : Expression.Kind) (e : Expression) (result : Except Failure String)
  | need (object : String)
  | pick (object : Option String)

/-- What is left of a context when the deed is done. -/
def Deed.change : Deed → Context → Context
  | begin .., context => context.enter
  | finish .., context => context.leave
  | settle kind e result, context => context.settle kind e result
  | need object, context => context.need object
  | pick object, context => context.setCurrent object

structure Moment where
  deed : Deed
  /-- The context right after the deed. -/
  context : Context

theorem Context.settle_eq (context : Context) (kind : Expression.Kind) (e : Expression)
    (result : Except Failure String) :
    ∃ lowered, context.settle kind e result = { context with lowered := lowered } := by
  unfold settle
  split
  · exact ⟨[], rfl⟩
  · cases result with
    | ok code => exact ⟨_, rfl⟩
    | error failure => exact ⟨_, rfl⟩

namespace Moment

/-- The object whose list is needed from now on. -/
def object? (moment : Moment) : Option String :=
  match moment.deed with
  | .need object => some object
  | _ => none

/-- The lowerings that are going on, the innermost first, once the deed is done. -/
def nest (going : List (Expression.Kind × Expression)) (moment : Moment) :
    List (Expression.Kind × Expression) :=
  match moment.deed with
  | .begin kind e => (kind, e) :: going
  | .finish .. => going.tail
  | _ => going

/-- The lowerings that are going on after the moments. -/
def goingOn (moments : List Moment) : List (Expression.Kind × Expression) := moments.foldl nest []

/-- The context that the last of the moments leaves. -/
def last (context : Context) (moments : List Moment) : Context :=
  moments.foldl (fun _ moment => moment.context) context

end Moment

namespace Script

variable {α β : Type}

/-- The moments of a script that is carried out from a state. `inner` says the same of the lowerings
that it asks for. -/
def moments (handler : Handler (StateM State))
    (inner : Expression.Kind → Expression → State → List Moment) : Script α → State → List Moment
  | done _, _ => []
  | lowering kind e next, state =>
    inner kind e state ++
      (next (handler.lower kind e state).1).moments handler inner (handler.lower kind e state).2
  | including path next, state => next.moments handler inner (handler.require path state).2
  | needing object next, state =>
    ⟨.need object, (handler.need object state).2.context⟩ ::
      next.moments handler inner (handler.need object state).2
  | picking object next, state =>
    ⟨.pick object, (handler.setCurrent object state).2.context⟩ ::
      next.moments handler inner (handler.setCurrent object state).2
  | viewing next, state =>
    (next (handler.view state).1).moments handler inner (handler.view state).2

end Script

namespace Generator

variable (generator : Generator)

/-- The moments of a lowering with so many levels left. A fragment that is remembered takes none,
and an expression that is refused is only settled. -/
def momentsWithin : Nat → Expression.Kind → Expression → State → List Moment
  | 0, kind, e, state =>
    match state.context.remembered? kind e with
    | some _ => []
    | none =>
      let (result, ended) := generator.lowerWithin Context.remembered? 0 kind e state
      [⟨.settle kind e result, ended.context⟩]
  | levels + 1, kind, e, state =>
    match state.context.remembered? kind e with
    | some _ => []
    | none =>
      let lower := generator.lowerWithin Context.remembered? levels
      let (result, ended) := generator.ended Context.remembered? levels kind e state
      ⟨.begin kind e, state.enter.context⟩ ::
        ((generator.script kind e).moments (generator.handler lower) (momentsWithin levels)
          state.enter ++
        [⟨.finish kind e, ended.leave.context⟩,
          ⟨.settle kind e result, (ended.leave.settle kind e result).context⟩])

/-- The moments of a lowering as far as the context allows. -/
def moments (kind : Expression.Kind) (e : Expression) (state : State) : List Moment :=
  generator.momentsWithin state.context.levels kind e state

section Equations
variable {kind : Expression.Kind} {e : Expression} {state : State}

theorem momentsWithin_of_recall {levels : Nat} {code : String}
    (h : state.context.remembered? kind e = some code) :
    generator.momentsWithin levels kind e state = [] := by
  cases levels <;> simp only [momentsWithin, h]

theorem momentsWithin_zero (h : state.context.remembered? kind e = none) :
    generator.momentsWithin 0 kind e state
      = [⟨.settle kind e (generator.lowerWithin Context.remembered? 0 kind e state).1,
          (generator.lowerWithin Context.remembered? 0 kind e state).2.context⟩] := by
  simp only [momentsWithin, h]
  rfl

theorem momentsWithin_succ {levels : Nat} (h : state.context.remembered? kind e = none) :
    generator.momentsWithin (levels + 1) kind e state
      = ⟨.begin kind e, state.enter.context⟩ ::
        ((generator.script kind e).moments
            (generator.handler (generator.lowerWithin Context.remembered? levels))
            (generator.momentsWithin levels) state.enter ++
          [⟨.finish kind e,
              (generator.ended Context.remembered? levels kind e state).2.leave.context⟩,
            ⟨.settle kind e (generator.ended Context.remembered? levels kind e state).1,
              ((generator.ended Context.remembered? levels kind e state).2.leave.settle kind e
                (generator.ended Context.remembered? levels kind e state).1).context⟩]) := by
  simp only [momentsWithin, h]

end Equations
end Generator

/-- A context, and the lowerings that are going on in it, the innermost first. -/
structure Stand where
  context : Context
  going : List (Expression.Kind × Expression)

namespace Stand

/-- From one stand to the next, with at most `limit` lowerings going on. -/
inductive Step (limit : Nat) : Stand → Moment → Stand → Prop where
  | begin {context : Context} {going : List (Expression.Kind × Expression)}
      {kind : Expression.Kind} {e : Expression} (hlimit : going.length < limit) :
      Step limit ⟨context, going⟩ ⟨.begin kind e, context.enter⟩ ⟨context.enter, (kind, e) :: going⟩
  | finish {context : Context} {going : List (Expression.Kind × Expression)}
      {kind : Expression.Kind} {e : Expression} :
      Step limit ⟨context, (kind, e) :: going⟩ ⟨.finish kind e, context.leave⟩
        ⟨context.leave, going⟩
  | settle {context : Context} {going : List (Expression.Kind × Expression)}
      {kind : Expression.Kind} {e : Expression} {result : Except Failure String} :
      Step limit ⟨context, going⟩ ⟨.settle kind e result, context.settle kind e result⟩
        ⟨context.settle kind e result, going⟩
  | need {context : Context} {going : List (Expression.Kind × Expression)} {object : String} :
      Step limit ⟨context, going⟩ ⟨.need object, context.need object⟩ ⟨context.need object, going⟩
  | pick {context : Context} {going : List (Expression.Kind × Expression)}
      {object : Option String} :
      Step limit ⟨context, going⟩ ⟨.pick object, context.setCurrent object⟩
        ⟨context.setCurrent object, going⟩

/-- Moments one after the other. -/
inductive Course (limit : Nat) : Stand → List Moment → Stand → Prop where
  | done (stand : Stand) : Course limit stand [] stand
  | step {stand next last : Stand} {moment : Moment} {moments : List Moment}
      (hstep : Step limit stand moment next) (hrest : Course limit next moments last) :
      Course limit stand (moment :: moments) last

/-- The depth of the context is the number of the lowerings that are going on, and that is within
the limit. -/
structure Exact (limit : Nat) (stand : Stand) : Prop where
  depth : stand.context.depth = stand.going.length
  bounded : stand.going.length ≤ limit
  limited : stand.context.maxDepth = limit

variable {limit : Nat} {stand next last : Stand} {moment : Moment} {moments : List Moment}

theorem Step.course (h : Step limit stand moment next) : Course limit stand [moment] next :=
  .step h (.done next)

theorem Course.trans {more : List Moment} (hfirst : Course limit stand moments next)
    (hthen : Course limit next more last) : Course limit stand (moments ++ more) last := by
  induction hfirst with
  | done _ => exact hthen
  | step hstep _ ih => exact .step hstep (ih hthen)

/-- A course can be cut at any moment. -/
theorem Course.cut {first second : List Moment} (h : Course limit stand (first ++ second) last) :
    ∃ next, Course limit stand first next ∧ Course limit next second last := by
  induction first generalizing stand with
  | nil => exact ⟨stand, .done stand, h⟩
  | cons moment first ih =>
    cases h with
    | step hstep hrest =>
      obtain ⟨next, hfirst, hsecond⟩ := ih hrest
      exact ⟨next, .step hstep hfirst, hsecond⟩

/-- To settle a lowering, to need a list and to pick an object leave the nesting as it is. -/
theorem Exact.of_eq {context : Context} (h : Exact limit stand)
    (hdepth : context.depth = stand.context.depth)
    (hmaxDepth : context.maxDepth = stand.context.maxDepth) :
    Exact limit ⟨context, stand.going⟩ :=
  ⟨hdepth.trans h.depth, h.bounded, hmaxDepth.trans h.limited⟩

theorem Step.exact (hstep : Step limit stand moment next) (h : Exact limit stand) :
    Exact limit next := by
  cases hstep with
  | begin hlimit => exact ⟨congrArg (· + 1) h.depth, hlimit, h.limited⟩
  | finish =>
    exact ⟨congrArg (· - 1) h.depth, Nat.le_of_succ_le h.bounded, h.limited⟩
  | @settle context _ kind e result =>
    obtain ⟨lowered, hsettle⟩ := context.settle_eq kind e result
    exact h.of_eq (by rw [hsettle]) (by rw [hsettle])
  | need => exact h.of_eq (by rw [Context.need_eq]) (by rw [Context.need_eq])
  | pick => exact h.of_eq rfl rfl

theorem Course.exact (hcourse : Course limit stand moments last) (h : Exact limit stand) :
    Exact limit last := by
  induction hcourse with
  | done _ => exact h
  | step hstep _ ih => exact ih (hstep.exact h)

/-- Each context is the one before it with the deed done. -/
theorem Step.change (h : Step limit stand moment next) :
    moment.context = moment.deed.change stand.context := by
  cases h <;> rfl

/-- Only the innermost lowering finishes. -/
theorem Step.innermost {kind : Expression.Kind} {e : Expression}
    (h : Step limit stand moment next) (hdeed : moment.deed = .finish kind e) :
    stand.going.head? = some (kind, e) := by
  cases h with
  | finish =>
    cases hdeed
    rfl
  | _ => cases hdeed

/-- Of what is going on the moments say everything. -/
theorem Course.going_eq (h : Course limit stand moments last) :
    last.going = moments.foldl Moment.nest stand.going := by
  induction h with
  | done _ => rfl
  | step hstep _ ih =>
    rw [ih, List.foldl_cons]
    cases hstep <;> rfl

theorem Course.context_eq (h : Course limit stand moments last) :
    last.context = Moment.last stand.context moments := by
  induction h with
  | done _ => rfl
  | step hstep _ ih =>
    rw [ih, Moment.last, Moment.last, List.foldl_cons]
    cases hstep <;> rfl

/-- To need one list more is to write its object down, unless it has been written down before. -/
theorem needed_need {context : Context} {names : List String} (h : context.needed = names.eraseDups)
    (object : String) : (context.need object).needed = (names ++ [object]).eraseDups := by
  have hmem : object ∈ context.needed ↔ object ∈ names := by rw [h, List.mem_eraseDups]
  rw [Context.need_eq, List.eraseDups_append, ← h]
  by_cases hobject : object ∈ names
  · simp [hmem.2 hobject, List.removeAll, hobject]
  · simp [mt hmem.1 hobject, List.removeAll, hobject, List.eraseDups_cons]

/-- What a deed does to the lists that are needed. -/
theorem Step.needed_eq {names : List String} (hstep : Step limit stand moment next)
    (h : stand.context.needed = names.eraseDups) :
    next.context.needed = (names ++ moment.object?.toList).eraseDups := by
  have same {context : Context} (heq : context.needed = stand.context.needed) :
      context.needed = (names ++ []).eraseDups := by rw [heq, h, List.append_nil]
  cases hstep with
  | need => exact needed_need h _
  | begin => exact same rfl
  | finish => exact same rfl
  | pick => exact same rfl
  | @settle context _ kind e result =>
    obtain ⟨lowered, hsettle⟩ := context.settle_eq kind e result
    exact same (by rw [hsettle])

/-- The lists that are needed after a course: those of before, and then the others in the order in
which they are first asked for. -/
theorem Course.needed_eq {names : List String} (hcourse : Course limit stand moments last)
    (h : stand.context.needed = names.eraseDups) :
    last.context.needed = (names ++ moments.filterMap Moment.object?).eraseDups := by
  induction hcourse generalizing names with
  | done _ => rw [List.filterMap_nil, List.append_nil, h]
  | @step _ _ _ moment _ hstep _ ih =>
    rw [ih (hstep.needed_eq h), List.append_assoc]
    cases hobject : moment.object? <;> simp [hobject]

theorem Step.needed_nodup (hstep : Step limit stand moment next)
    (h : stand.context.needed.Nodup) : next.context.needed.Nodup := by
  cases hstep with
  | need => exact Context.need_nodup _ h
  | begin => exact h
  | finish => exact h
  | pick => exact h
  | @settle context _ kind e result =>
    obtain ⟨lowered, hsettle⟩ := context.settle_eq kind e result
    rw [hsettle]
    exact h

theorem Course.needed_nodup (hcourse : Course limit stand moments last)
    (h : stand.context.needed.Nodup) : last.context.needed.Nodup := by
  induction hcourse with
  | done _ => exact h
  | step hstep _ ih => exact ih (hstep.needed_nodup h)

end Stand

section Courses
variable {limit : Nat} {going : List (Expression.Kind × Expression)}

/-- The moments of a script form a course if those of the lowerings that it asks for do. -/
theorem Script.course_moments (generator : Generator)
    {lower : Expression.Kind → Expression → StateM State (Except Failure String)}
    {inner : Expression.Kind → Expression → State → List Moment}
    (hlower : ∀ kind e {state : State}, Stand.Exact limit ⟨state.context, going⟩ →
      Stand.Course limit ⟨state.context, going⟩ (inner kind e state)
        ⟨(lower kind e state).2.context, going⟩)
    {α : Type} (script : Script α) (state : State) (h : Stand.Exact limit ⟨state.context, going⟩) :
    Stand.Course limit ⟨state.context, going⟩
      (script.moments (generator.handler lower) inner state)
      ⟨(script.run (generator.handler lower) state).2.context, going⟩ := by
  induction script generalizing state with
  | done value => exact .done _
  | lowering kind e next ih =>
    have hinner := hlower kind e h
    exact hinner.trans (ih _ _ (hinner.exact h))
  | including path next ih => exact ih ((generator.handler lower).require path state).2 h
  | needing object next ih =>
    have hrest := ih ((generator.handler lower).need object state).2 (Stand.Step.need.exact h)
    exact .step .need hrest
  | picking object next ih =>
    have hrest := ih ((generator.handler lower).setCurrent object state).2 (Stand.Step.pick.exact h)
    exact .step .pick hrest
  | viewing next ih => exact ih _ _ h

variable {generator : Generator}

theorem Generator.course_lowerWithin (levels : Nat) (kind : Expression.Kind) (e : Expression)
    {state : State} (hlevels : going.length + levels ≤ limit)
    (h : Stand.Exact limit ⟨state.context, going⟩) :
    Stand.Course limit ⟨state.context, going⟩ (generator.momentsWithin levels kind e state)
      ⟨(generator.lowerWithin Context.remembered? levels kind e state).2.context, going⟩ := by
  have recalled {levels : Nat} {kind : Expression.Kind} {e : Expression} {state : State}
      {going : List (Expression.Kind × Expression)} {code : String}
      (hcode : state.context.remembered? kind e = some code) :
      Stand.Course limit ⟨state.context, going⟩ (generator.momentsWithin levels kind e state)
        ⟨(generator.lowerWithin Context.remembered? levels kind e state).2.context, going⟩ := by
    rw [lowerWithin_of_recall generator hcode, momentsWithin_of_recall generator hcode]
    exact .done _
  induction levels generalizing kind e state going with
  | zero =>
    cases hcode : state.context.remembered? kind e with
    | some code => exact recalled hcode
    | none =>
      rw [momentsWithin_zero generator hcode, lowerWithin_zero generator hcode]
      exact Stand.Step.settle.course
  | succ levels ih =>
    cases hcode : state.context.remembered? kind e with
    | some code => exact recalled hcode
    | none =>
      rw [momentsWithin_succ generator hcode, lowerWithin_succ generator hcode]
      have hbegin : Stand.Step limit ⟨state.context, going⟩ ⟨.begin kind e, state.enter.context⟩
          ⟨state.enter.context, (kind, e) :: going⟩ := .begin (by omega)
      have hdeeper : ((kind, e) :: going).length + levels ≤ limit := by
        rw [List.length_cons]
        omega
      have hscript := Script.course_moments generator (fun kind e _ h => ih kind e hdeeper h)
        (generator.script kind e) state.enter (hbegin.exact h)
      exact .step hbegin (hscript.trans (.step .finish Stand.Step.settle.course))

/-- The moments of a lowering form a course that ends where the lowering does. -/
theorem Generator.course_lower (kind : Expression.Kind) (e : Expression) {state : State}
    (h : Stand.Exact limit ⟨state.context, going⟩) :
    Stand.Course limit ⟨state.context, going⟩ (generator.moments kind e state)
      ⟨(generator.lower kind e state).2.context, going⟩ := by
  refine generator.course_lowerWithin _ kind e ?_ h
  have hdepth : state.context.depth = going.length := h.depth
  have hbounded : going.length ≤ limit := h.bounded
  have hlimited : state.context.maxDepth = limit := h.limited
  rw [Context.levels]
  omega

/-- So do those of a script. -/
theorem Generator.course_perform {α : Type} (script : Script α) {state : State}
    (h : Stand.Exact limit ⟨state.context, going⟩) :
    Stand.Course limit ⟨state.context, going⟩
      (script.moments (generator.handler generator.lower) generator.moments state)
      ⟨(generator.perform script state).2.context, going⟩ :=
  script.course_moments generator (fun kind e _ h => generator.course_lower kind e h) state h

end Courses
end EventFormula
