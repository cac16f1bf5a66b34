import EventFormula.Proofs.Script.Local
import EventFormula.Session
import Mathlib.Data.List.Forall2

/-!
# Fragments built from outside

A fragment that is built move by move can be told anything in any order, also what no formula
yields. What a move contributes depends on the state that the moves before it left, and not on the
fragment: it is some code for the output, or the outcome of an argument. So the moves can be carried
out for their contributions alone, as `moves_eq` says whatever meets their requests, and the
fragment only collects them. The main statement, `visit_collects`, is about the fragment after each
move and what it comes to in the end.
-/

namespace EventFormula

namespace Session

/-- The failure that a reply reports. -/
def Reply.failure? : Reply → Option Failure
  | .checked (.error failure) => some failure
  | .lowered (.error failure) => some failure
  | _ => Option.none

/-- Whether the move asks for an argument to be lowered. -/
def Move.isNested : Move → Bool
  | .event (.argument ..) | .lower .. => true
  | .event _ => false

/-- What a move comes to by itself: its answer, and what it adds to the output. -/
structure Contribution where
  reply : Reply
  code : String

namespace Contribution

/-- What the move contributes in the state that it finds. -/
def ofMove (generator : Generator) : Move → Script Contribution
  | .event (.constant text) | .event (.operator text) => return ⟨.none, text⟩
  | .event (.number text) => return ⟨.none, Fragment.numberCode text⟩
  | .event (.call call) => return ⟨.none, ← generator.callCode call⟩
  | .event (.argument kind e) => return ⟨.checked ((← Script.lower kind e).map fun _ => ()), ""⟩
  | .lower kind e => return ⟨.lowered (← Script.lower kind e), ""⟩

/-- The fragment with the contribution: its code is appended, and a failure is kept if it is the
first. -/
def onto (fragment : Fragment) (own : Contribution) : Fragment :=
  ⟨fragment.output ++ own.code, fragment.firstFailure.or own.reply.failure?⟩

/-- The fragment after each contribution, with the answers. -/
def collect : Fragment → List Contribution → List (Reply × Fragment)
  | _, [] => []
  | fragment, own :: rest => (own.reply, onto fragment own) :: collect (onto fragment own) rest

end Contribution

open Contribution

/-- The fragment once so many of the moves have been answered. -/
def fragmentAfter (answers : List (Reply × Fragment)) (count : Nat) : Fragment :=
  (answers.take count).getLast?.elim {} Prod.snd

/-- A move that lowers an argument adds no code, and no other move reports anything. -/
def Move.Fits (step : Move) (own : Contribution) : Prop :=
  if step.isNested then own.code = "" else own.reply = .none

/-- The answers to the moves are what comes of contributions of their own: the output grows by the
code of each move, and the failure that is kept is the first one reported so far. -/
structure Collects (steps : List Move) (own : List Contribution)
    (answers : List (Reply × Fragment)) : Prop where
  fits : List.Forall₂ Move.Fits steps own
  reply : answers.map Prod.fst = own.map Contribution.reply
  output : ∀ (i : Nat) (it : Contribution), own[i]? = some it →
    (fragmentAfter answers (i + 1)).output = (fragmentAfter answers i).output ++ it.code
  failure : ∀ i, (fragmentAfter answers i).firstFailure = (answers.take i).findSome? (·.1.failure?)

section Moves

variable (generator : Generator) (fragment : Fragment)

theorem move_eq (step : Move) :
    move generator fragment step
      = (ofMove generator step).bind fun own => .done (own.reply, onto fragment own) := by
  rcases step with (text | text | text | ⟨kind, e⟩ | call) | ⟨kind, e⟩
  case event.constant | event.operator | event.number =>
    change Script.done _ = Script.done _
    simp [onto, Fragment.append, Reply.failure?]
  case event.call =>
    change ((generator.callCode call).bind _).bind _ = ((generator.callCode call).bind _).bind _
    simp only [Script.bind_assoc]
    congr 1
    funext code
    change Script.done _ = Script.done _
    simp [onto, Fragment.append, Reply.failure?]
  case event.argument | lower =>
    change Script.lowering kind e _ = Script.lowering kind e _
    congr 1
    funext result
    cases result <;> change Script.done _ = Script.done _ <;>
      simp [onto, Fragment.note, Reply.failure?, Except.map]

theorem moves_eq (steps : List Move) :
    moves generator fragment steps
      = (Script.each (ofMove generator) steps).bind fun own => .done (collect fragment own) := by
  induction steps generalizing fragment with
  | nil => rfl
  | cons step steps ih =>
    calc moves generator fragment (step :: steps)
        = (move generator fragment step).bind fun answer =>
            (moves generator answer.2 steps).bind fun rest => .done (answer :: rest) := rfl
      _ = (ofMove generator step).bind fun own =>
            (Script.each (ofMove generator) steps).bind fun rest =>
              .done (collect fragment (own :: rest)) := by
          simp only [move_eq, ih, Script.bind_assoc, Script.bind, collect]
      _ = (Script.each (ofMove generator) (step :: steps)).bind fun own =>
            .done (collect fragment own) := by
          change _ = Script.bind (Script.bind _ fun own => Script.bind _ _) _
          simp only [Script.bind_assoc]
          rfl

end Moves

section Collect

variable (fragment : Fragment) (own : List Contribution)

theorem length_collect : (collect fragment own).length = own.length := by
  induction own generalizing fragment with
  | nil => rfl
  | cons it own ih => simp [collect, ih]

theorem map_reply_collect : (collect fragment own).map Prod.fst = own.map reply := by
  induction own generalizing fragment with
  | nil => rfl
  | cons it own ih => simp [collect, ih]

/-- The fragment after some of the contributions has taken them in one after the other. -/
theorem last_collect (count : Nat) :
    ((collect fragment own).take count).getLast?.elim fragment Prod.snd
      = (own.take count).foldl onto fragment := by
  induction own generalizing fragment count with
  | nil => simp [collect]
  | cons it own ih =>
    cases count with
    | zero => rfl
    | succ count =>
      rw [List.take_succ_cons, List.foldl_cons, ← ih, collect, List.take_succ_cons,
        List.getLast?_cons]
      cases ((collect (onto fragment it) own).take count).getLast? <;> rfl

theorem output_foldl_onto :
    (own.foldl onto fragment).output = fragment.output ++ String.join (own.map code) := by
  induction own generalizing fragment with
  | nil => simp
  | cons it own ih => simp [ih, onto, String.append_assoc]

theorem firstFailure_foldl_onto :
    (own.foldl onto fragment).firstFailure
      = fragment.firstFailure.or (own.findSome? (·.reply.failure?)) := by
  induction own generalizing fragment with
  | nil => simp
  | cons it own ih =>
    rw [List.foldl_cons, ih, onto, Option.or_assoc, List.findSome?_cons]
    cases it.reply.failure? <;> rfl

end Collect

theorem fragmentAfter_collect (own : List Contribution) (count : Nat) :
    fragmentAfter (collect {} own) count = (own.take count).foldl onto {} :=
  last_collect {} own count

theorem findSome?_collect (own : List Contribution) (count : Nat) :
    ((collect {} own).take count).findSome? (·.1.failure?)
      = (own.take count).findSome? (·.reply.failure?) := by
  have h := congrArg (fun replies => (replies.take count).findSome? Reply.failure?)
    (map_reply_collect {} own)
  simpa [← List.map_take, List.findSome?_map, Function.comp_def] using h

section Run

variable {generator : Generator} {handler : Script.Handler (StateM State)}

theorem fits_ofMove (step : Move) (state : State) :
    step.Fits ((ofMove generator step).run handler state).1 := by
  rcases step with (text | text | text | ⟨kind, e⟩ | call) | ⟨kind, e⟩
  case event.call =>
    have hrun := Script.run_then handler state (generator.callCode call) fun code =>
      .done (Contribution.mk .none code)
    exact congrArg (fun result => result.1.reply) hrun
  all_goals rfl

theorem fits_each (steps : List Move) (state : State) :
    List.Forall₂ Move.Fits steps ((Script.each (ofMove generator) steps).run handler state).1 := by
  induction steps generalizing state with
  | nil => exact .nil
  | cons step steps ih =>
    change List.Forall₂ Move.Fits _ (Script.run handler (_ >>= _) state).1
    rw [Script.run_then, Script.run_then]
    exact .cons (fits_ofMove step state) (ih _)

end Run

theorem collects_collect {steps : List Move} {own : List Contribution}
    (h : List.Forall₂ Move.Fits steps own) : Collects steps own (collect {} own) where
  fits := h
  reply := map_reply_collect {} own
  output i it hit := by
    rw [fragmentAfter_collect, fragmentAfter_collect, List.take_add_one, hit, List.foldl_append]
    rfl
  failure i := by
    rw [fragmentAfter_collect, firstFailure_foldl_onto, findSome?_collect]
    rfl

theorem finish_collect (own : List Contribution) (read : Except Failure Unit) :
    ((collect {} own).getLast?.elim {} Prod.snd).finish read
      = match (collect {} own).findSome? (·.1.failure?) with
        | some failure => .error failure
        | none => read.map fun _ => String.join (own.map code) := by
  have hlast := fragmentAfter_collect own (collect {} own).length
  have hfailure := findSome?_collect own (collect {} own).length
  rw [fragmentAfter, List.take_length, length_collect, List.take_length] at hlast
  rw [List.take_length, length_collect, List.take_length] at hfailure
  rw [hlast, hfailure, Fragment.finish, firstFailure_foldl_onto, output_foldl_onto]
  cases own.findSome? (·.reply.failure?) <;> simp

/-- Whatever the moves are, and in whatever state they are made, each contributes what it would
without the fragment. -/
theorem visit_collects (steps : List Move) (read : Except Failure Unit) (session : Session) :
    let carried := session.generator.perform
      (Script.each (ofMove session.generator) steps) session.state
    let visited := visit steps read session
    visited.2 = { session with state := carried.2 } ∧
      Collects steps carried.1 visited.1.1 ∧
      visited.1.2 = match visited.1.1.findSome? (·.1.failure?) with
        | some failure => .error failure
        | none => read.map fun _ => String.join (carried.1.map code) := by
  intro carried visited
  have hmoves : session.generator.perform (moves session.generator {} steps) session.state
      = (collect {} carried.1, carried.2) := by
    rw [moves_eq]
    exact Script.run_then _ session.state _ _
  have hvisited : visited =
      let answered := session.generator.perform (moves session.generator {} steps) session.state
      ((answered.1, (answered.1.getLast?.elim {} Prod.snd).finish read),
        { session with state := answered.2 }) := rfl
  rw [hvisited, hmoves]
  exact ⟨rfl, collects_collect (fits_each steps session.state), finish_collect carried.1 read⟩

end Session
end EventFormula
