import EventFormula.Trace.Descent

/-!
# The descent reads the trace

A visitor that is beside the recursive descent meets the same as one that is shown the trace when
all tokens are read. Each stage of the reader is what is still to be done in some part of the
descent; the parts are compared by induction on the tokens that are left.
-/

namespace EventFormula

variable {m : Type → Type} [Monad m] (visitor : Visitor m)

section Lift

variable [LawfulMonad m] {α β γ : Type}

theorem lift_ok (a : α) (f : α → ExceptT Failure m β) :
    (liftM (Except.ok a : Except Failure α) >>= f) = f a := pure_bind a f

theorem lift_error (failure : Failure) (f : α → ExceptT Failure m β) :
    (liftM (Except.error failure : Except Failure α) >>= f) = throw failure :=
  ExceptT.bind_throw f

theorem lift_bind (a : Except Failure α) (f : α → Except Failure β) :
    (liftM (a >>= f) : ExceptT Failure m β) = liftM a >>= fun a => liftM (f a) := by
  cases a with
  | ok a => exact (lift_ok a fun a => liftM (f a)).symm
  | error failure => exact (lift_error failure fun a => liftM (f a)).symm

theorem lift_map (a : Except Failure α) (g : α → β) (f : β → ExceptT Failure m γ) :
    (liftM (a >>= fun a => pure (g a)) >>= f) = liftM a >>= fun a => f (g a) := by
  cases a with
  | ok a => exact (lift_ok (g a) f).trans (lift_ok a fun a => f (g a)).symm
  | error failure =>
    exact (lift_error failure f).trans (lift_error failure fun a => f (g a)).symm

end Lift

namespace Visitor

/-- Any event, told of or asked about. -/
def meet : Event → ExceptT Failure m Unit
  | .argument kind e => visitor.ask kind e
  | event => visitor.tell event

/-- The events of a trace, and then its failure. -/
def follow (trace : Trace) : ExceptT Failure m Unit := do
  forM trace.events visitor.meet
  liftM trace.result

theorem visitEvents_meet [LawfulMonad m] (events : List Event) :
    Trace.visitEvents (fun event => (visitor.meet event).run) events
      = (forM events visitor.meet).run := by
  induction events with
  | nil => rfl
  | cons event events ih =>
    rw [Trace.visitEvents, List.forM_cons, ExceptT.run_bind]
    refine bind_congr fun answer => ?_
    cases answer with
    | ok _ => exact ih
    | error failure => rfl

theorem visit_meet [LawfulMonad m] (trace : Trace) :
    trace.visit (fun event => (visitor.meet event).run) = (visitor.follow trace).run := by
  rw [Trace.visit, visitEvents_meet, follow, ExceptT.run_bind]
  refine bind_congr fun answer => ?_
  cases answer with
  | ok _ => rfl
  | error failure => rfl

theorem follow_failure [LawfulMonad m] (failure : Failure) :
    visitor.follow ⟨[], some failure⟩ = throw failure := pure_bind _ _

theorem follow_after [LawfulMonad m] (events : List Event) (trace : Trace) :
    visitor.follow (trace.after events)
      = forM events visitor.meet >>= fun _ => visitor.follow trace := by
  rw [follow, Trace.after, List.forM_append, bind_assoc]
  rfl

variable {visitor} {p : Token → Bool} {token : Token}

theorem meet_lead (token : Token) : visitor.meet (lead token) = visitor.tell (lead token) := by
  rw [lead]
  split <;> rfl

theorem pass_pos [LawfulMonad m] (h : p token = true) (tokens : List Token) :
    visitor.pass p (token :: tokens)
      = visitor.tell (lead token) >>= fun _ => visitor.pass p tokens := by
  rw [pass, List.takeWhile_cons_of_pos h, List.forM_cons]
  rfl

theorem pass_neg (h : ¬ p token = true) (tokens : List Token) :
    visitor.pass p (token :: tokens) = pure () := by
  rw [pass, List.takeWhile_cons_of_neg h, List.forM_nil]

end Visitor

namespace Trace.Reader

theorem behind_pos {p : Token → Bool} {token : Token} (h : p token = true) (tokens : List Token) :
    (behind p (token :: tokens)).1 = (behind p tokens).1 := List.dropWhile_cons_of_pos h

theorem behind_neg {p : Token → Bool} {token : Token} (h : ¬ p token = true)
    (tokens : List Token) : (behind p (token :: tokens)).1 = token :: tokens :=
  List.dropWhile_cons_of_neg h

variable (reader : Reader)

/-- What a visitor finds from some stage on. -/
def shown (stage : Stage) (groups tokens : List Token) : ExceptT Failure m Unit :=
  visitor.follow (reader.walk stage groups tokens)

variable [LawfulMonad m] {reader} {visitor} {stage next : Stage}
  {groups left tokens : List Token} {token : Token} {events : List Event} {failure : Failure}

theorem shown_next (h : reader.step stage groups token = .next events next left) :
    reader.shown visitor stage groups (token :: tokens)
      = forM events visitor.meet >>= fun _ => reader.shown visitor next left tokens := by
  rw [shown, walk, h]
  exact visitor.follow_after events _

theorem shown_one {event : Event} (h : reader.step stage groups token = .next [event] next left) :
    reader.shown visitor stage groups (token :: tokens)
      = visitor.meet event >>= fun _ => reader.shown visitor next left tokens := by
  rw [shown_next h, List.forM_cons, List.forM_nil, bind_assoc]
  simp only [pure_bind]

theorem shown_silent (h : reader.step stage groups token = .next [] next left) :
    reader.shown visitor stage groups (token :: tokens)
      = reader.shown visitor next left tokens := by
  rw [shown_next h, List.forM_nil, pure_bind]

theorem shown_stop (h : reader.step stage groups token = .stop failure) :
    reader.shown visitor stage groups (token :: tokens) = throw failure := by
  rw [shown, walk, h, Visitor.follow_failure]

theorem shown_end (h : reader.atEnd stage groups = some failure) :
    reader.shown visitor stage groups [] = throw failure := by
  rw [shown, walk, h, Visitor.follow_failure]

/-- A stage is passed by the tokens that leave it as it is. -/
theorem shown_pass {p : Token → Bool} (hstep : ∀ token, p token = true →
      reader.step stage groups token = .next [Visitor.lead token] stage groups)
    (tokens : List Token) :
    reader.shown visitor stage groups tokens
      = visitor.pass p tokens >>= fun _ =>
        reader.shown visitor stage groups (behind p tokens).1 := by
  induction tokens with
  | nil => exact (pure_bind PUnit.unit fun _ => reader.shown visitor stage groups []).symm
  | cons token tokens ih =>
    by_cases hp : p token = true
    · rw [shown_one (hstep token hp), ih, behind_pos hp, Visitor.pass_pos hp, Visitor.meet_lead,
        bind_assoc]
    · rw [behind_neg hp, Visitor.pass_neg hp, pure_bind]

theorem shown_blanks (groups tokens : List Token) :
    reader.shown visitor .operator groups tokens
      = visitor.pass Token.isWhitespace tokens >>= fun _ =>
        reader.shown visitor .operator groups (behind Token.isWhitespace tokens).1 :=
  shown_pass (fun token hblank => by simp [step, stepOperator, Visitor.lead, hblank]) tokens

theorem shown_leads (groups tokens : List Token) :
    reader.shown visitor .operand groups tokens
      = visitor.pass reader.leads tokens >>= fun _ =>
        reader.shown visitor .operand groups (behind reader.leads tokens).1 := by
  refine shown_pass (fun token hleads => ?_) tokens
  by_cases hblank : token.isWhitespace = true
  · simp [step, stepOperand, Visitor.lead, hblank]
  · have hsigns : reader.signs token.kind = true := by simpa [leads, hblank] using hleads
    simp [step, stepOperand, Visitor.lead, hblank, hsigns]

section Head

variable {start : List Token}

/-- A stage that only tokens of some kinds leave. -/
theorem shown_expect {kinds : List Token.Kind} {expected : String}
    {go : Token × Left start → ExceptT Failure m Unit}
    (hend : reader.atEnd stage groups = some (reader.unexpected reader.closing expected))
    (hstop : ∀ token, token.kind ∉ kinds →
      reader.step stage groups token = .stop (reader.unexpected token expected))
    (hgo : ∀ token rest, token.kind ∈ kinds →
      reader.shown visitor stage groups (token :: rest.1) = go (token, rest)) (left : Left start) :
    reader.shown visitor stage groups left.1
      = liftM (reader.expect kinds expected left) >>= go := by
  rcases left with ⟨_ | ⟨token, tokens⟩, h⟩
  · rw [shown_end hend, expect, lift_error]
  · by_cases hkind : token.kind ∈ kinds
    · rw [expect, if_pos hkind, lift_ok]
      exact hgo token ⟨tokens, Nat.le_of_lt h⟩ hkind
    · rw [shown_stop (hstop token hkind), expect, if_neg hkind, lift_error]

theorem shown_openCall {found : Except Failure Head}
    (h : reader.step stage groups token = openCall found token groups) :
    reader.shown visitor stage groups (token :: tokens)
      = liftM found >>= fun head =>
        reader.shown visitor (.arguments head token 0 []) groups tokens := by
  cases found with
  | ok head => rw [shown_silent h, lift_ok]
  | error failure => rw [shown_stop h, lift_error]

/-- A stage that only a name leaves. -/
theorem shown_identifier {expected : String} {next : Token → Stage}
    (hend : reader.atEnd stage groups = some (reader.unexpected reader.closing expected))
    (hstep : ∀ token, reader.step stage groups token =
      if token.kind = .identifier then .next [] (next token) groups
      else .stop (reader.unexpected token expected)) (left : Left start) :
    reader.shown visitor stage groups left.1
      = liftM (reader.expect [.identifier] expected left) >>= fun (name, rest) =>
        reader.shown visitor (next name) groups rest.1 := by
  refine shown_expect hend (fun token hkind => ?_) (fun token rest hkind => ?_) left
  · rw [hstep, if_neg fun h => hkind (List.mem_singleton.2 h)]
  · exact shown_silent ((hstep token).trans (if_pos (List.mem_singleton.1 hkind)))

/-- A stage at which the head of a call may end; a token of another kind carries it on. -/
theorem shown_opening {expected : String} {other : Token.Kind} {next : Stage}
    {found : Except Failure Head}
    (hend : reader.atEnd stage groups = some (reader.unexpected reader.closing expected))
    (hstep : ∀ token, reader.step stage groups token =
      if token.kind = .leftParen then openCall found token groups
      else if token.kind = other then .next [] next groups
      else .stop (reader.unexpected token expected)) (left : Left start) :
    reader.shown visitor stage groups left.1
      = liftM (reader.expect [.leftParen, other] expected left) >>= fun (token, rest) =>
        if token.kind = .leftParen then
          liftM found >>= fun head =>
            reader.shown visitor (.arguments head token 0 []) groups rest.1
        else reader.shown visitor next groups rest.1 := by
  refine shown_expect hend (fun token hkind => ?_) (fun token rest hkind => ?_) left
  · simp only [List.mem_cons, List.not_mem_nil, or_false, not_or] at hkind
    rw [hstep, if_neg hkind.1, if_neg hkind.2]
  · by_cases hopening : token.kind = .leftParen
    · simp only [if_pos hopening]
      exact shown_openCall ((hstep token).trans (if_pos hopening))
    · have hother : token.kind = other := by simpa [hopening] using hkind
      simp only [if_neg hopening]
      exact shown_silent ((hstep token).trans ((if_neg hopening).trans (if_pos hother)))

theorem shown_functionName (name member function : Token) (left : Left start) :
    reader.shown visitor (.functionName name member function) groups left.1
      = liftM (reader.expect [.leftParen] "`(`" left) >>= fun (token, rest) =>
        liftM (reader.behaviorHead name member function) >>= fun head =>
          reader.shown visitor (.arguments head token 0 []) groups rest.1 := by
  refine shown_expect ?_ ?_ ?_ left
  · rfl
  · intro token hkind
    simp only [step]
    split <;> simp_all
  · intro token rest hkind
    apply shown_openCall
    simp only [step, List.mem_singleton.1 hkind]

theorem shown_function (name member : Token) (left : Left start) :
    reader.shown visitor (.function name member) groups left.1
      = liftM (reader.expect [.identifier] "a behavior function name" left) >>=
        fun (function, rest) =>
          reader.shown visitor (.functionName name member function) groups rest.1 := by
  refine shown_identifier rfl (fun token => ?_) left
  cases hkind : token.kind <;> simp [step, hkind]

theorem shown_memberName (name member : Token) (left : Left start) :
    reader.shown visitor (.memberName name member) groups left.1
      = liftM (reader.expect [.leftParen, .doubleColon] "`(` or `::`" left) >>=
        fun (token, rest) =>
          if token.kind = .leftParen then
            liftM (reader.objectHead name member) >>= fun head =>
              reader.shown visitor (.arguments head token 0 []) groups rest.1
          else reader.shown visitor (.function name member) groups rest.1 := by
  refine shown_opening rfl (fun token => ?_) left
  cases hkind : token.kind <;> simp [step, hkind]

theorem shown_member (name : Token) (left : Left start) :
    reader.shown visitor (.member name) groups left.1
      = liftM (reader.expect [.identifier] "a function or behavior name" left) >>=
        fun (member, rest) => reader.shown visitor (.memberName name member) groups rest.1 := by
  refine shown_identifier rfl (fun token => ?_) left
  cases hkind : token.kind <;> simp [step, hkind]

theorem shown_name (name : Token) (left : Left start) :
    reader.shown visitor (.name name) groups left.1
      = liftM (reader.expect [.leftParen, .dot] "`(` or `.` after a name" left) >>=
        fun (token, rest) =>
          if token.kind = .leftParen then
            liftM (reader.freeHead name) >>= fun head =>
              reader.shown visitor (.arguments head token 0 []) groups rest.1
          else reader.shown visitor (.member name) groups rest.1 := by
  refine shown_opening rfl (fun token => ?_) left
  cases hkind : token.kind <;> simp [step, hkind]

/-- The head of a call, token by token or at once. -/
theorem shown_head (name : Token) (left : Left start) :
    reader.shown visitor (.name name) groups left.1
      = liftM (reader.head name left) >>= fun (head, opening, rest) =>
        reader.shown visitor (.arguments head opening 0 []) groups rest.1 := by
  rw [shown_name, head, lift_bind, bind_assoc]
  refine bind_congr fun ⟨token, left⟩ => ?_
  dsimp only
  split
  · rw [lift_map]
  rw [shown_member, lift_bind, bind_assoc]
  refine bind_congr fun ⟨member, left⟩ => ?_
  dsimp only
  rw [shown_memberName, lift_bind, bind_assoc]
  refine bind_congr fun ⟨token, left⟩ => ?_
  dsimp only
  split
  · rw [lift_map]
  rw [shown_function, lift_bind, bind_assoc]
  refine bind_congr fun ⟨function, left⟩ => ?_
  dsimp only
  rw [shown_functionName, lift_bind, bind_assoc]
  refine bind_congr fun ⟨token, left⟩ => ?_
  dsimp only
  rw [lift_map]

end Head

/-- What closing a call with these tokens between its parentheses comes to. -/
def close (reader : Reader) (visitor : Visitor m) (head : Head) (opening closing : Token)
    (inner : List Token) : ExceptT Failure m Unit :=
  liftM (reader.callEvents head opening closing inner) >>= fun events => forM events visitor.meet

theorem step_inside {head : Head} {opening : Token} {depth : Nat} {before : List Token}
    (hclosing : ¬ (token.kind = .rightParen ∧ depth = 0))
    (hstring : token.kind ≠ .unterminatedString) :
    reader.step (.arguments head opening depth before) groups token
      = .next [] (.arguments head opening (depthBehind token depth) (token :: before)) groups := by
  simp only [step, stepArguments, depthBehind]
  cases depth <;> cases hkind : token.kind <;> simp_all

theorem shown_arguments (head : Head) (opening : Token) (depth : Nat) (before tokens : List Token) :
    reader.shown visitor (.arguments head opening depth before) groups tokens
      = liftM (reader.scan opening depth tokens) >>= fun (inner, closing, rest) =>
        reader.close visitor head opening closing (before.reverse ++ inner) >>= fun _ =>
          reader.shown visitor .operator groups rest.1 := by
  induction tokens generalizing depth before with
  | nil => rw [shown_end rfl, scan, lift_error]
  | cons token tokens ih =>
    by_cases hclosing : token.kind = .rightParen ∧ depth = 0
    · rw [scan, if_pos hclosing, lift_ok]
      dsimp only
      rw [List.append_nil, close]
      cases hevents : reader.callEvents head opening token before.reverse with
      | ok events =>
        have hstep : reader.step (.arguments head opening depth before) groups token
            = .next events .operator groups := by
          simp only [step, stepArguments, hclosing, hevents]
        rw [shown_next hstep, lift_ok]
      | error failure =>
        have hstep : reader.step (.arguments head opening depth before) groups token
            = .stop failure := by
          simp only [step, stepArguments, hclosing, hevents]
        rw [shown_stop hstep, lift_error, ExceptT.bind_throw]
    by_cases hstring : token.kind = .unterminatedString
    · have hstep : reader.step (.arguments head opening depth before) groups token
          = .stop ⟨.unterminatedString, reader.placeOf token.span⟩ := by
        simp only [step, stepArguments, hstring]
      rw [shown_stop hstep, scan, if_neg hclosing, if_pos hstring, lift_error]
    · rw [shown_silent (step_inside hclosing hstring), ih, scan, if_neg hclosing, if_neg hstring]
      cases reader.scan opening (depthBehind token depth) tokens with
      | ok found =>
        obtain ⟨inner, closing, left⟩ := found
        rw [Except.map, lift_ok, lift_ok]
        simp only [List.reverse_cons, List.append_assoc, List.cons_append, List.nil_append]
        rfl
      | error failure => rw [Except.map, lift_error, lift_error]

theorem forM_checks (callable : Callable) (arguments : List Call.Argument) :
    forM (Call.checks callable arguments) visitor.meet
      = forM (callable.parameters.zip arguments) fun (parameter, argument) =>
        visitor.validate parameter argument := by
  rw [Call.checks]
  induction callable.parameters.zip arguments with
  | nil => rfl
  | cons pair pairs ih =>
    obtain ⟨parameter, argument⟩ := pair
    rw [List.forM_cons, ← ih, List.filterMap_cons]
    cases hwritten : argument.written with
    | false => simp [Visitor.validate, hwritten]
    | true =>
      cases hkind : parameter.kind.expressionKind? with
      | none => simp [Visitor.validate, hwritten, hkind]
      | some kind => simp [Visitor.validate, Visitor.meet, hwritten, hkind]

/-- A call that is read is reported, and the reader is behind a complete term. -/
theorem shown_call (name : Token) (tokens : List Token) :
    reader.shown visitor (.name name) groups tokens
      = visitor.call reader name tokens >>= fun left =>
        reader.shown visitor .operator groups left.1 := by
  refine (shown_head name ⟨tokens, Nat.le_refl _⟩).trans ?_
  rw [Visitor.call, bind_assoc]
  refine bind_congr fun ⟨head, opening, left⟩ => ?_
  dsimp only
  rw [shown_arguments, bind_assoc]
  refine bind_congr fun ⟨inner, closing, rest⟩ => ?_
  dsimp only
  rw [close, callEvents, List.reverse_nil, List.nil_append]
  cases Call.align head.function head.callable head.given
      (Call.split reader.base opening.span.stop inner)
      (reader.placeOf (head.span.merge closing.span)) with
  | ok arguments =>
    rw [Except.map, lift_ok, lift_ok, List.forM_append, forM_checks, List.forM_cons, List.forM_nil]
    simp only [bind_assoc, pure_bind]
    rfl
  | error failure => simp only [Except.map, lift_error, ExceptT.bind_throw]

/-- What has to follow a formula that is read to its end: nothing outside of all groups, else the
parenthesis that closes the innermost one. -/
def leave (reader : Reader) (visitor : Visitor m) :
    (groups tokens : List Token) → ExceptT Failure m Unit
  | [], [] => pure ()
  | [], token :: _ =>
    if token.kind = .rightParen then throw ⟨.unmatchedParen, reader.placeOf token.span⟩
    else throw (reader.unexpected token reader.continuation)
  | opening :: _, [] => throw ⟨.unclosedParen, reader.placeOf opening.span⟩
  | _ :: groups, token :: tokens =>
    if token.kind = .rightParen then
      visitor.tell (.constant token.text) >>= fun _ =>
        reader.shown visitor .operator groups tokens
    else throw (reader.unexpected token "`)`")

def finish (reader : Reader) (visitor : Visitor m) (groups tokens : List Token) :
    ExceptT Failure m Unit :=
  visitor.pass Token.isWhitespace tokens >>= fun _ =>
    reader.leave visitor groups (behind Token.isWhitespace tokens).1

theorem head_behind {p : Token → Bool} (h : (behind p tokens).1 = token :: left) :
    ¬ p token = true := by
  have hhead := List.head?_dropWhile_not p tokens
  rw [show tokens.dropWhile p = token :: left from h] at hhead
  simpa using hhead

theorem shown_leave_nil (groups : List Token) :
    reader.shown visitor .operator groups [] = reader.leave visitor groups [] := by
  cases groups with
  | nil => exact pure_bind PUnit.unit _
  | cons opening groups => exact shown_end rfl

theorem step_outside (hblank : ¬ token.isWhitespace = true)
    (hjoins : ¬ reader.joins token.kind = true) :
    reader.step .operator [] token =
      if token.kind = .rightParen then .stop ⟨.unmatchedParen, reader.placeOf token.span⟩
      else .stop (reader.unexpected token reader.continuation) := by
  simp only [step, stepOperator, if_neg hblank, if_neg hjoins]
  cases token.kind <;> rfl

theorem step_inGroup (hblank : ¬ token.isWhitespace = true)
    (hjoins : ¬ reader.joins token.kind = true) (opening : Token) (groups : List Token) :
    reader.step .operator (opening :: groups) token =
      if token.kind = .rightParen then .next [.constant token.text] .operator groups
      else .stop (reader.unexpected token "`)`") := by
  simp only [step, stepOperator, if_neg hblank, if_neg hjoins]
  cases token.kind <;> rfl

/-- Behind a complete term a token that is no operator ends the formula. -/
theorem shown_leave_cons (hblank : ¬ token.isWhitespace = true)
    (hjoins : ¬ reader.joins token.kind = true) (groups left : List Token) :
    reader.shown visitor .operator groups (token :: left)
      = reader.leave visitor groups (token :: left) := by
  cases groups with
  | nil =>
    have hstep := step_outside hblank hjoins
    rw [leave]
    by_cases hclosing : token.kind = .rightParen
    · rw [if_pos hclosing] at hstep ⊢
      exact shown_stop hstep
    · rw [if_neg hclosing] at hstep ⊢
      exact shown_stop hstep
  | cons opening groups =>
    have hstep := step_inGroup hblank hjoins opening groups
    rw [leave]
    by_cases hclosing : token.kind = .rightParen
    · rw [if_pos hclosing] at hstep ⊢
      exact shown_one hstep
    · rw [if_neg hclosing] at hstep ⊢
      exact shown_stop hstep

theorem finish_nil (groups : List Token) :
    reader.finish visitor groups [] = reader.leave visitor groups [] := pure_bind PUnit.unit _

theorem finish_cons (hblank : ¬ token.isWhitespace = true) (groups left : List Token) :
    reader.finish visitor groups (token :: left) = reader.leave visitor groups (token :: left) := by
  rw [finish, Visitor.pass_neg hblank, behind_neg hblank, pure_bind]

theorem step_primary (groups : List Token) (hblank : ¬ token.isWhitespace = true)
    (hsigns : ¬ reader.signs token.kind = true) :
    reader.step .operand groups token =
      match token.kind, reader.kind with
      | .number, .number => .next [.number token.text] .operator groups
      | .number, .text => .stop (reader.unexpected token "a string")
      | .string, .text => .next [.call (reader.literal token)] .operator groups
      | .string, .number => .stop (reader.unexpected token "a number")
      | .leftParen, _ =>
        if groups.length < maxGroups then
          .next [.constant token.text] .operand (token :: groups)
        else .stop ⟨.nestingTooDeep maxGroups, reader.placeOf token.span⟩
      | .identifier, _ => .next [] (.name token) groups
      | _, _ => .stop (reader.expectedExpression token) :=
  (if_neg hblank).trans (if_neg hsigns)

mutual

/-- Where a term has to start, the term is read first. -/
theorem shown_term (groups tokens : List Token) :
    reader.shown visitor .operand groups tokens
      = visitor.term reader groups.length tokens >>= fun left =>
        reader.shown visitor .operator groups left.1 := by
  rw [shown_leads, Visitor.term, bind_assoc]
  refine bind_congr fun _ => ?_
  rcases hbehind : behind reader.leads tokens with ⟨_ | ⟨token, left⟩, h⟩
  · rw [shown_end rfl]
    exact (ExceptT.bind_throw _).symm
  · have hleads : ¬ reader.leads token = true := head_behind (congrArg Subtype.val hbehind)
    simp only [leads, Bool.or_eq_true, not_or] at hleads
    obtain ⟨hblank, hsigns⟩ := hleads
    have hstep := step_primary groups hblank hsigns
    dsimp only
    split
    · rename_i hkind hreader
      rw [hkind, hreader] at hstep
      rw [shown_one hstep, bind_assoc]
      simp only [pure_bind]
      rfl
    · rename_i hkind hreader
      rw [hkind, hreader] at hstep
      rw [shown_stop hstep, ExceptT.bind_throw]
    · rename_i hkind hreader
      rw [hkind, hreader] at hstep
      rw [shown_one hstep, bind_assoc]
      simp only [pure_bind]
      rfl
    · rename_i hkind hreader
      rw [hkind, hreader] at hstep
      rw [shown_stop hstep, ExceptT.bind_throw]
    · rename_i hkind
      rw [hkind] at hstep
      rw [bind_assoc]
      simp only [pure_bind]
      refine Eq.trans ?_ (shown_group token groups left)
      split
      · rename_i hfull
        rw [if_neg (Nat.not_lt.2 hfull)] at hstep
        exact shown_stop hstep
      · rename_i hfull
        rw [if_pos (Nat.lt_of_not_le hfull)] at hstep
        exact shown_one hstep
    · rename_i hkind
      rw [hkind] at hstep
      rw [shown_silent hstep, shown_call, bind_assoc]
      simp only [pure_bind]
      rfl
    · rw [ExceptT.bind_throw]
      apply shown_stop
      rw [hstep]
      split <;> simp_all
termination_by 3 * tokens.length
decreasing_by
  rw [List.length_cons] at h
  omega

theorem shown_group (opening : Token) (groups tokens : List Token) :
    (if maxGroups ≤ groups.length then
        throw ⟨.nestingTooDeep maxGroups, reader.placeOf opening.span⟩
      else visitor.tell (.constant opening.text) >>= fun _ =>
        reader.shown visitor .operand (opening :: groups) tokens)
      = visitor.group reader groups.length opening tokens >>= fun left =>
        reader.shown visitor .operator groups left.1 := by
  rw [Visitor.group]
  split
  · rw [ExceptT.bind_throw]
  rw [bind_assoc]
  refine bind_congr fun _ => ?_
  rw [shown_formula, List.length_cons, bind_assoc]
  refine bind_congr fun left => ?_
  rw [finish, bind_assoc]
  refine bind_congr fun _ => ?_
  rcases behind Token.isWhitespace left.1 with ⟨_ | ⟨closing, rest⟩, h⟩
  · exact (ExceptT.bind_throw _).symm
  · by_cases hclosing : closing.kind = .rightParen
    · simp only [leave, if_pos hclosing, bind_assoc, pure_bind]
    · simp only [leave, if_neg hclosing, ExceptT.bind_throw]
termination_by 3 * tokens.length + 2

/-- Inside of groups or not, a whole formula is read, and then what has to follow it. -/
theorem shown_formula (groups tokens : List Token) :
    reader.shown visitor .operand groups tokens
      = visitor.formula reader groups.length tokens >>= fun left =>
        reader.finish visitor groups left.1 := by
  rw [shown_term, Visitor.formula, bind_assoc]
  refine bind_congr fun left => ?_
  rw [shown_more, bind_assoc]
  refine bind_congr fun rest => ?_
  rw [pure_bind]
  rfl
termination_by 3 * tokens.length + 1
decreasing_by
  · omega
  · have := left.2
    omega

theorem shown_more (groups tokens : List Token) :
    reader.shown visitor .operator groups tokens
      = visitor.more reader groups.length tokens >>= fun left =>
        reader.finish visitor groups left.1 := by
  rw [shown_blanks, Visitor.more, bind_assoc]
  refine bind_congr fun _ => ?_
  rcases hbehind : behind Token.isWhitespace tokens with ⟨_ | ⟨token, left⟩, h⟩
  · rw [pure_bind, finish_nil, shown_leave_nil]
  · have hblank : ¬ token.isWhitespace = true := head_behind (congrArg Subtype.val hbehind)
    dsimp only
    split
    · rename_i hjoins
      have hstep : reader.step .operator groups token
          = .next [.operator token.text] .operand groups := by
        simp only [step, stepOperator, if_neg hblank, if_pos hjoins]
      rw [shown_one hstep, bind_assoc]
      refine bind_congr fun _ => ?_
      rw [shown_formula, bind_assoc]
      refine bind_congr fun rest => ?_
      rw [pure_bind]
      rfl
    · rename_i hjoins
      rw [pure_bind, finish_cons hblank, shown_leave_cons hblank hjoins]
termination_by 3 * tokens.length
decreasing_by
  rw [List.length_cons] at h
  omega

end

theorem parse_eq_follow (scope : Scope) (kind : Expression.Kind) (e : Expression) :
    visitor.parse scope kind e = visitor.follow (Trace.ofExpression scope kind e) := by
  rw [Visitor.parse, Trace.ofExpression]
  split
  · rw [Visitor.follow_failure]
  · refine Eq.symm ((shown_formula [] (Token.lexemes e.text)).trans ?_)
    refine bind_congr fun left => ?_
    rw [finish]
    refine bind_congr fun _ => ?_
    cases (behind Token.isWhitespace left.1).1 with
    | nil => rfl
    | cons token left => rfl

end Trace.Reader

/-- It is the same for a visitor whether it is told of the parts of a formula while they are read or
shown the events when all are read. -/
theorem Visitor.parse_eq_visit [LawfulMonad m] (scope : Scope) (kind : Expression.Kind)
    (e : Expression) :
    (visitor.parse scope kind e).run =
      (Trace.ofExpression scope kind e).visit fun event => (visitor.meet event).run := by
  rw [visit_meet, Trace.Reader.parse_eq_follow]

end EventFormula
