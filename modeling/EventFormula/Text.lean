/-! Cutting text at byte offsets, which count the bytes that characters take in UTF-8. A cut is
refused past the end of the text and inside a character. -/

namespace EventFormula.Text

/-- The bytes that the characters take. -/
def size : List Char → Nat
  | [] => 0
  | c :: cs => c.utf8Size + size cs

/-- The characters before byte `n` and those from it on. -/
def splitAt? : Nat → List Char → Option (List Char × List Char)
  | 0, cs => some ([], cs)
  | _ + 1, [] => none
  | n + 1, c :: cs =>
    if c.utf8Size ≤ n + 1 then
      (splitAt? (n + 1 - c.utf8Size) cs).map fun (before, after) => (c :: before, after)
    else none

/-- The characters between two offsets, if both are cuts and in order. -/
def slice? (start stop : Nat) (cs : List Char) : Option (List Char) :=
  if start ≤ stop then
    (splitAt? stop cs).bind fun (before, _) => (splitAt? start before).map Prod.snd
  else none

def slice (source : String) (start stop : Nat) : String :=
  String.ofList ((slice? start stop source.toList).getD [])

def replaceChar (needle : Char) (written text : String) : String :=
  String.ofList (text.toList.flatMap fun c => if c = needle then written.toList else [c])

@[simp] theorem size_append (as bs : List Char) : size (as ++ bs) = size as + size bs := by
  induction as with
  | nil => simp [size]
  | cons c cs ih => simp [size, ih, Nat.add_assoc]

theorem length_le_size (cs : List Char) : cs.length ≤ size cs := by
  induction cs with
  | nil => simp [size]
  | cons c cs ih =>
    have := c.utf8Size_pos
    simp only [List.length_cons, size]
    omega

theorem splitAt?_eq_some {n : Nat} {cs before after : List Char}
    (h : splitAt? n cs = some (before, after)) : cs = before ++ after ∧ size before = n := by
  induction cs generalizing n before after with
  | nil =>
    cases n with
    | zero => simp_all [splitAt?, size]
    | succ n => simp [splitAt?] at h
  | cons c cs ih =>
    cases n with
    | zero => simp_all [splitAt?, size]
    | succ n =>
      rw [splitAt?] at h
      split at h
      · rcases Option.map_eq_some_iff.1 h with ⟨⟨b, a⟩, hb, he⟩
        rcases Prod.mk.injEq .. ▸ he with ⟨rfl, rfl⟩
        rcases ih hb with ⟨rfl, hs⟩
        refine ⟨rfl, ?_⟩
        simp only [size, hs]
        omega
      · cases h

theorem splitAt?_append (as bs : List Char) : splitAt? (size as) (as ++ bs) = some (as, bs) := by
  induction as with
  | nil => simp [size, splitAt?]
  | cons c cs ih =>
    have := c.utf8Size_pos
    rcases hn : size (c :: cs) with _ | n
    · simp only [size] at hn
      omega
    · have hle : c.utf8Size ≤ n + 1 := by simp only [size] at hn; omega
      have hrest : n + 1 - c.utf8Size = size cs := by simp only [size] at hn; omega
      simp [splitAt?, hle, hrest, ih]

/-- What stands between two parts of a text is cut out between their offsets. -/
theorem slice?_append (as bs cs : List Char) :
    slice? (size as) (size (as ++ bs)) (as ++ bs ++ cs) = some bs := by
  have hle : size as ≤ size (as ++ bs) := by
    rw [size_append]
    exact Nat.le_add_right ..
  rw [slice?, if_pos hle, splitAt?_append, Option.bind_some]
  exact congrArg (Option.map Prod.snd) (splitAt?_append as bs)

example : slice "aé" 1 3 = "é" ∧ slice "aé" 1 2 = "" ∧ slice "aé" 2 1 = "" := by
  decide +kernel

end EventFormula.Text
