import EventFormula.Proofs.Lowering.Moments
import EventFormula.Proofs.Session.History

/-!
# The books of a session

The moments of a session are those of its steps, one after the other. The main statement,
`Session.books_exact`, is about the context at any of them: which lists are needed by then, in which
order, and how deep the lowerings that are going on are nested. It asks nothing of the target and of
the hooks.
-/

namespace EventFormula

/-- The moments of a script that a session carries out. -/
def Generator.momentsOf (generator : Generator) {α : Type} (script : Script α) (state : State) :
    List Moment :=
  script.moments (generator.handler generator.lower) generator.moments state

namespace Session

/-- The moments of a step. -/
def moments (session : Session) : Step → List Moment
  | .lower kind e => session.generator.moments kind e session.state
  | .visit steps _ => session.generator.momentsOf (moves session.generator {} steps) session.state
  | .setCurrent object => [⟨.pick object, ((setCurrent object session).2).state.context⟩]
  | .need object => [⟨.need object, ((need object session).2).state.context⟩]
  | .require path => session.generator.momentsOf (.require path) session.state
  | .register .. | .expand _ => []
  | .parameters arguments list =>
    session.generator.momentsOf (session.generator.target.parameterCodes arguments list)
      session.state
  | .access access (some code) =>
    session.generator.momentsOf (session.generator.target.otherCall access code) session.state
  | .access access none =>
    session.generator.momentsOf (session.generator.target.currentCall access) session.state

/-- The moments of all steps. -/
def momentsAll (session : Session) : List Step → List Moment
  | [] => []
  | step :: steps => session.moments step ++ (session.after step).momentsAll steps

variable {limit : Nat} {session : Session}

/-- The moments of a step form a course that ends where the step does; no lowering is going on
before it or behind it. -/
theorem course_moments (h : Stand.Exact limit ⟨session.state.context, []⟩) (step : Step) :
    Stand.Course limit ⟨session.state.context, []⟩ (session.moments step)
      ⟨(session.after step).state.context, []⟩ := by
  cases step with
  | lower kind e => exact Generator.course_lower kind e h
  | visit steps read => exact Generator.course_perform _ h
  | setCurrent object => exact Stand.Step.pick.course
  | need object => exact Stand.Step.need.course
  | require path => exact Generator.course_perform (.require path) h
  | register name hook => exact .done _
  | expand name => exact .done _
  | parameters arguments list => exact Generator.course_perform _ h
  | access access otherwise =>
    cases otherwise with
    | some code => exact Generator.course_perform _ h
    | none => exact Generator.course_perform _ h

theorem course_momentsAll (h : Stand.Exact limit ⟨session.state.context, []⟩) (steps : List Step) :
    Stand.Course limit ⟨session.state.context, []⟩ (session.momentsAll steps)
      ⟨(steps.foldl after session).state.context, []⟩ := by
  induction steps generalizing session with
  | nil => exact .done _
  | cons step steps ih =>
    have hstep := course_moments h step
    exact hstep.trans (ih (hstep.exact h))

/-- At every moment of a session the lists that are needed are those that have been asked for, each
once and in the order of first use, and of those of an earlier moment none is gone or has moved. The
depth is the number of lowerings that are going on and within the limit; a lowering that finishes is
the innermost one of those, so the depth it is taken off is not zero. -/
theorem books_exact (generator : Generator) (current : Option String) (maxDepth : Option Nat)
    (steps : List Step) :
    let start : Session := ⟨generator, { context := .fresh current maxDepth }⟩
    let moments := start.momentsAll steps
    let point (done : List Moment) : Context := Moment.last start.state.context done
    (steps.foldl after start).state.context = point moments ∧
      ∀ done rest, moments = done ++ rest →
        (point done).needed.Nodup ∧
        (point done).needed = (done.filterMap Moment.object?).eraseDups ∧
        (∀ earlier between, done = earlier ++ between →
          (point earlier).needed <+: (point done).needed) ∧
        (point done).depth = (Moment.goingOn done).length ∧
        (point done).depth ≤ (point done).maxDepth ∧
        (point done).maxDepth = maxDepth.getD Context.defaultMaxDepth ∧
        ∀ moment later, rest = moment :: later →
          moment.context = moment.deed.change (point done) ∧
          ∀ kind e, moment.deed = .finish kind e →
            (Moment.goingOn done).head? = some (kind, e) ∧ 0 < (point done).depth := by
  intro start moments point
  have hstart : Stand.Exact (maxDepth.getD Context.defaultMaxDepth) ⟨start.state.context, []⟩ :=
    ⟨rfl, Nat.zero_le _, rfl⟩
  have hcourse := course_momentsAll hstart steps
  refine ⟨hcourse.context_eq, ?_⟩
  intro done rest hsplit
  have hcut : Stand.Course (maxDepth.getD Context.defaultMaxDepth) ⟨start.state.context, []⟩
      (done ++ rest) ⟨(steps.foldl after start).state.context, []⟩ := hsplit ▸ hcourse
  obtain ⟨here, hdone, hrest⟩ := hcut.cut
  have hcontext : here.context = point done := hdone.context_eq
  have hgoing : here.going = Moment.goingOn done := hdone.going_eq
  have hneeded (part : List Moment) (stand : Stand)
      (h : Stand.Course (maxDepth.getD Context.defaultMaxDepth) ⟨start.state.context, []⟩ part
        stand) : stand.context.needed = (part.filterMap Moment.object?).eraseDups :=
    h.needed_eq List.eraseDups_nil.symm
  have hexact : Stand.Exact _ here := hdone.exact hstart
  rw [← hcontext, ← hgoing]
  refine ⟨hdone.needed_nodup List.nodup_nil, hneeded done here hdone, ?_, hexact.depth,
    ?_, hexact.limited, ?_⟩
  · rintro earlier between rfl
    obtain ⟨before, hearlier, -⟩ := hdone.cut
    have hbefore : before.context = point earlier := hearlier.context_eq
    rw [← hbefore, hneeded _ before hearlier, hneeded _ here hdone, List.filterMap_append,
      List.eraseDups_append]
    exact List.prefix_append _ _
  · rw [hexact.depth, hexact.limited]
    exact hexact.bounded
  · rintro moment later rfl
    cases hrest with
    | step hstep _ =>
      refine ⟨hstep.change, fun kind e hdeed => ?_⟩
      have hhead := hstep.innermost hdeed
      refine ⟨hhead, ?_⟩
      rw [hexact.depth]
      exact List.length_pos_of_mem (List.mem_of_head? hhead)

/-- The lists and the depths while `F(2)` is lowered, between lists that are needed. -/
example :
    ((⟨JavaScript.generator .sample, .initial 4⟩ : Session).momentsAll
      [.need "Enemy", .lower .number (.ofText "F(2)"), .need "Player", .need "Enemy"]).map
        (fun moment => (moment.context.depth, moment.context.needed))
      = [(0, ["Enemy"]), (1, ["Enemy"]), (2, ["Enemy"]), (1, ["Enemy"]), (1, ["Enemy"]),
        (0, ["Enemy"]), (0, ["Enemy"]), (0, ["Enemy", "Player"]), (0, ["Enemy", "Player"])] := by
  decide +kernel

end Session
end EventFormula
