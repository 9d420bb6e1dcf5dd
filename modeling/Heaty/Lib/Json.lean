import Heaty.Lib.Decimal

/-! JSON values, and a printer and reader for flat objects: members that are
integers or plain strings, which is what small devices exchange. The reader
takes any white space between tokens and refuses everything else. -/

/-- A parsed JSON text over strings of code units `γ`. -/
inductive Json (γ : Type) where
  | null
  | bool (b : Bool)
  | num (q : ℚ)
  | str (s : List γ)
  | arr (items : List (Json γ))
  | obj (members : List (List γ × Json γ))

namespace Json

/-- The values a flat object is built from. -/
inductive Scalar
  | int (z : ℤ)
  | str (s : List UInt8)
  deriving DecidableEq

def Scalar.toJson : Scalar → Json UInt8
  | .int z => .num z
  | .str s => .str s

/-- The object with the given members, over code units that extend the bytes. -/
def flatWith {γ : Type} (unit : UInt8 → γ) (members : List (List UInt8 × Scalar)) : Json γ :=
  .obj (members.map fun m =>
    (m.1.map unit, match m.2 with
      | .int z => .num z
      | .str s => .str (s.map unit)))

/-- The object with the given members. -/
def flat (members : List (List UInt8 × Scalar)) : Json UInt8 :=
  .obj (members.map fun m => (m.1, m.2.toJson))

theorem Scalar.toJson_injective : Function.Injective Scalar.toJson := by
  intro a b h
  cases a <;> cases b <;> simp_all [Scalar.toJson]

theorem flat_injective : Function.Injective flat := by
  intro a b h
  simp only [flat, Json.obj.injEq] at h
  refine List.map_injective_iff.2 ?_ h
  rintro ⟨k, v⟩ ⟨k', v'⟩ he
  simp only [Prod.mk.injEq] at he
  exact Prod.ext he.1 (Scalar.toJson_injective he.2)

/-! ## Characters -/

/-- Printable ASCII that needs no escape in a string. -/
def isPlain (c : UInt8) : Bool := 32 ≤ c ∧ c < 127 ∧ c ≠ 34 ∧ c ≠ 92

def isSpace (c : UInt8) : Bool := c = 32 ∨ c = 9 ∨ c = 10 ∨ c = 13

def skipSpace (text : List UInt8) : List UInt8 := text.dropWhile isSpace

/-- White space the printer puts in front of a token. -/
def Blank (ws : List UInt8) : Prop := ∀ c ∈ ws, isSpace c = true

theorem skipSpace_blank {ws rest : List UInt8} (hws : Blank ws) {c : UInt8}
    (hc : isSpace c = false) : skipSpace (ws ++ c :: rest) = c :: rest := by
  induction ws with
  | nil => simp [skipSpace, hc]
  | cons w ws ih =>
    simp only [Blank, List.forall_mem_cons] at hws
    simpa [skipSpace, hws.1] using ih hws.2

theorem skipSpace_cons {c : UInt8} (rest : List UInt8) (hc : isSpace c = false) :
    skipSpace (c :: rest) = c :: rest := by
  simp [skipSpace, hc]

theorem isSpace_of_isDigit {c : UInt8} (h : Decimal.isDigit c = true) : isSpace c = false := by
  simp only [Decimal.isDigit, decide_eq_true_eq] at h
  simp only [isSpace, decide_eq_false_iff_not]
  rintro (rfl | rfl | rfl | rfl) <;> exact absurd h.1 (by decide)

/-! ## Printing -/

/-- The white space around the tokens of an object. -/
structure Style where
  first : List UInt8
  colon : List UInt8
  comma : List UInt8
  last : List UInt8

def Scalar.print : Scalar → List UInt8
  | .int z => Decimal.int z
  | .str s => 34 :: s ++ [34]

def printMember (st : Style) (m : List UInt8 × Scalar) : List UInt8 :=
  34 :: m.1 ++ 34 :: 58 :: st.colon ++ m.2.print

def printMembers (st : Style) : List (List UInt8 × Scalar) → List UInt8
  | [] => []
  | [m] => printMember st m
  | m :: ms => printMember st m ++ 44 :: st.comma ++ printMembers st ms

def print (st : Style) (members : List (List UInt8 × Scalar)) : List UInt8 :=
  123 :: st.first ++ printMembers st members ++ st.last ++ [125]

/-! ## Reading -/

/-- Read the rest of a string whose opening quote has been read. -/
def readString (text : List UInt8) : Option (List UInt8 × List UInt8) :=
  match text.dropWhile isPlain with
  | 34 :: rest => some (text.takeWhile isPlain, rest)
  | _ => none

def readScalar (text : List UInt8) : Option (Scalar × List UInt8) :=
  match text with
  | 34 :: rest => (readString rest).map fun r => (.str r.1, r.2)
  | _ => (Decimal.readInt text).map fun r => (.int r.1, r.2)

def readMember (text : List UInt8) : Option ((List UInt8 × Scalar) × List UInt8) :=
  match text with
  | 34 :: rest =>
      match readString rest with
      | none => none
      | some (key, rest) =>
          match skipSpace rest with
          | 58 :: rest => (readScalar (skipSpace rest)).map fun r => ((key, r.1), skipSpace r.2)
          | _ => none
  | _ => none

/-- Read members up to the closing brace, at most `fuel` of them. -/
def readMembers : ℕ → List UInt8 → Option (List (List UInt8 × Scalar) × List UInt8)
  | 0, _ => none
  | fuel + 1, text =>
      match readMember text with
      | none => none
      | some (m, rest) =>
          match rest with
          | 125 :: rest => some ([m], rest)
          | 44 :: rest => (readMembers fuel (skipSpace rest)).map fun r => (m :: r.1, r.2)
          | _ => none

/-- Read an object at the start of a text, and what follows it. -/
def readFlat (text : List UInt8) : Option (List (List UInt8 × Scalar) × List UInt8) :=
  match skipSpace text with
  | 123 :: rest =>
      match skipSpace rest with
      | 125 :: rest => some ([], rest)
      | rest => readMembers rest.length rest
  | _ => none

/-! ## Round trip -/

/-- Members that print without escapes. -/
def PlainMember (m : List UInt8 × Scalar) : Prop :=
  (∀ c ∈ m.1, isPlain c = true) ∧ ∀ s, m.2 = .str s → ∀ c ∈ s, isPlain c = true

/-- The style's white space is white space. -/
structure Style.Ok (st : Style) : Prop where
  first : Blank st.first
  colon : Blank st.colon
  comma : Blank st.comma
  last : Blank st.last

theorem readString_plain {s : List UInt8} (hs : ∀ c ∈ s, isPlain c = true) (rest : List UInt8) :
    readString (s ++ 34 :: rest) = some (s, rest) := by
  have hquote : isPlain 34 = false := by decide
  have hspan : (s ++ 34 :: rest).takeWhile isPlain = s ∧
      (s ++ 34 :: rest).dropWhile isPlain = 34 :: rest := by
    induction s with
    | nil => simp [hquote]
    | cons c s ih =>
      simp only [List.forall_mem_cons] at hs
      simp [hs.1, ih hs.2]
  simp only [readString, hspan.1, hspan.2]

/-- The first character of a number is neither a quote nor white space. -/
theorem int_head (z : ℤ) : ∃ c tail, Decimal.int z = c :: tail ∧ c ≠ 34 ∧ isSpace c = false := by
  by_cases hz : z < 0
  · exact ⟨45, _, by rw [Decimal.int, if_pos hz], by decide, by decide⟩
  · cases hd : Decimal.digits z.natAbs with
    | nil => exact absurd hd (Decimal.digits_ne_nil _)
    | cons c tail =>
      have hc : Decimal.isDigit c = true := Decimal.isDigit_of_mem (hd ▸ List.mem_cons_self)
      refine ⟨c, tail, by rw [Decimal.int, if_neg hz, hd], ?_, isSpace_of_isDigit hc⟩
      rintro rfl
      exact absurd hc (by decide)

theorem readScalar_print {v : Scalar} (hv : ∀ s, v = .str s → ∀ c ∈ s, isPlain c = true)
    {rest : List UInt8} (hrest : Decimal.Stops rest) :
    readScalar (v.print ++ rest) = some (v, rest) := by
  cases v with
  | int z =>
    obtain ⟨c, tail, hint, hne, -⟩ := int_head z
    have hmatch : ∀ t, Decimal.int z ++ rest ≠ 34 :: t := by
      rw [hint]
      intro t he
      exact hne (List.cons.inj he).1
    rw [Scalar.print, readScalar.eq_2 _ hmatch, Decimal.readInt_int z hrest]
    rfl
  | str s =>
    simp only [Scalar.print, List.cons_append, List.append_assoc, List.nil_append, readScalar,
      readString_plain (hv s rfl), Option.map_some]

/-- The value of a member starts with a token. -/
theorem scalar_head (v : Scalar) : ∃ c tail, v.print = c :: tail ∧ isSpace c = false := by
  cases v with
  | int z =>
    obtain ⟨c, tail, hint, -, hc⟩ := int_head z
    exact ⟨c, tail, hint, hc⟩
  | str s => exact ⟨34, s ++ [34], rfl, by decide⟩

theorem readMember_print {st : Style} (hst : st.Ok) {m : List UInt8 × Scalar} (hm : PlainMember m)
    {ws rest : List UInt8} (hws : Blank ws) {c : UInt8} (hc : isSpace c = false)
    (hd : Decimal.isDigit c = false) :
    readMember (printMember st m ++ (ws ++ c :: rest)) = some (m, c :: rest) := by
  obtain ⟨d, tail, hprint, hdspace⟩ := scalar_head m.2
  have hskip : skipSpace (st.colon ++ m.2.print ++ (ws ++ c :: rest)) =
      m.2.print ++ (ws ++ c :: rest) := by
    rw [hprint, List.append_assoc, List.cons_append, skipSpace_blank hst.colon hdspace]
  have hstops : Decimal.Stops (ws ++ c :: rest) := by
    cases ws with
    | nil =>
      intro x t he
      rw [← (List.cons.inj he).1]
      exact hd
    | cons w ws =>
      intro x t he
      rw [← (List.cons.inj he).1]
      by_contra hdigit
      have hspace := isSpace_of_isDigit (Bool.eq_true_of_not_eq_false hdigit)
      rw [hws w (by simp)] at hspace
      cases hspace
  have htext : printMember st m ++ (ws ++ c :: rest) =
      34 :: (m.1 ++ 34 :: 58 :: (st.colon ++ m.2.print ++ (ws ++ c :: rest))) := by
    simp [printMember]
  rw [htext]
  simp only [readMember, readString_plain hm.1,
    skipSpace_cons _ (show isSpace 58 = false by decide),
    hskip, readScalar_print hm.2 hstops, Option.map_some, skipSpace_blank hws hc]

theorem readMembers_print {st : Style} (hst : st.Ok) (rest : List UInt8) :
    ∀ (members : List (List UInt8 × Scalar)) (fuel : ℕ), members ≠ [] → members.length ≤ fuel →
      (∀ m ∈ members, PlainMember m) →
      readMembers fuel (printMembers st members ++ (st.last ++ 125 :: rest)) =
        some (members, rest) := by
  intro members
  induction members with
  | nil => intro fuel hne; exact absurd rfl hne
  | cons m ms ih =>
    intro fuel _ hfuel hplain
    simp only [List.forall_mem_cons] at hplain
    cases fuel with
    | zero => simp at hfuel
    | succ fuel =>
      cases ms with
      | nil =>
        simp only [printMembers, readMembers,
          readMember_print hst hplain.1 hst.last (show isSpace 125 = false by decide) (by decide)]
      | cons m' ms =>
        have htail := ih fuel (by simp) (by simpa using hfuel) hplain.2
        have htext : printMembers st (m :: m' :: ms) ++ (st.last ++ 125 :: rest) =
            printMember st m ++ ([] ++ 44 ::
              (st.comma ++ (printMembers st (m' :: ms) ++ (st.last ++ 125 :: rest)))) := by
          simp [printMembers]
        have hhead : ∃ t, printMembers st (m' :: ms) ++ (st.last ++ 125 :: rest) = 34 :: t := by
          cases ms <;> exact ⟨_, by simp [printMembers, printMember]; rfl⟩
        obtain ⟨t, ht⟩ := hhead
        rw [htext, readMembers,
          readMember_print hst hplain.1 (show Blank [] by simp [Blank]) (by decide) (by decide)]
        simp only [ht, skipSpace_blank hst.comma (show isSpace 34 = false by decide)]
        rw [← ht, htail]
        rfl

theorem length_le_printMembers (st : Style) (members : List (List UInt8 × Scalar)) :
    members.length ≤ (printMembers st members).length := by
  induction members with
  | nil => simp
  | cons m ms ih =>
    cases ms with
    | nil => simp [printMembers, printMember]
    | cons m' ms =>
      simp only [printMembers, List.length_append, List.length_cons] at ih ⊢
      omega

/-- The reader inverts the printer. -/
theorem readFlat_print {st : Style} (hst : st.Ok) {members : List (List UInt8 × Scalar)}
    (hplain : ∀ m ∈ members, PlainMember m) (rest : List UInt8) :
    readFlat (print st members ++ rest) = some (members, rest) := by
  have hopen : skipSpace (print st members ++ rest) =
      123 :: (st.first ++ (printMembers st members ++ (st.last ++ 125 :: rest))) := by
    simp [print, skipSpace, show isSpace 123 = false by decide]
  cases members with
  | nil =>
    have hblank : Blank (st.first ++ st.last) := by
      intro c hc
      exact (List.mem_append.1 hc).elim (hst.first c) (hst.last c)
    have hclose : skipSpace (st.first ++ (printMembers st [] ++ (st.last ++ 125 :: rest))) =
        125 :: rest := by
      rw [printMembers, List.nil_append, ← List.append_assoc]
      exact skipSpace_blank hblank (by decide)
    simp only [readFlat, hopen, hclose]
  | cons m ms =>
    have hhead : ∃ t, printMembers st (m :: ms) ++ (st.last ++ 125 :: rest) = 34 :: t := by
      cases ms <;> exact ⟨_, by simp [printMembers, printMember]; rfl⟩
    obtain ⟨t, ht⟩ := hhead
    have hskip : skipSpace (st.first ++ (printMembers st (m :: ms) ++ (st.last ++ 125 :: rest))) =
        printMembers st (m :: ms) ++ (st.last ++ 125 :: rest) := by
      rw [ht]
      exact skipSpace_blank hst.first (by decide)
    have hlen : (m :: ms).length ≤
        (printMembers st (m :: ms) ++ (st.last ++ 125 :: rest)).length :=
      (length_le_printMembers st (m :: ms)).trans (by simp)
    have hread := readMembers_print hst rest (m :: ms) _ (by simp) hlen hplain
    rw [ht] at hskip hread
    simp only [readFlat, hopen, ht, hskip]
    exact hread

/-! ## A printed object as a C string -/

theorem zero_notMem_plain {s : List UInt8} (hs : ∀ c ∈ s, isPlain c = true) : 0 ∉ s := fun h =>
  absurd (hs 0 h) (by decide)

theorem zero_notMem_blank {ws : List UInt8} (hws : Blank ws) : 0 ∉ ws := fun h =>
  absurd (hws 0 h) (by decide)

theorem zero_notMem_scalar {v : Scalar} (hv : ∀ s, v = .str s → ∀ c ∈ s, isPlain c = true) :
    0 ∉ v.print := by
  cases v with
  | int z =>
    intro h
    rcases Decimal.mem_int h with h | h
    · exact absurd h (by decide)
    · exact absurd h (by decide)
  | str s => simpa [Scalar.print] using zero_notMem_plain (hv s rfl)

theorem zero_notMem_printMember {st : Style} (hst : st.Ok) {m : List UInt8 × Scalar}
    (hm : PlainMember m) : 0 ∉ printMember st m := by
  have hkey := zero_notMem_plain hm.1
  have hcolon := zero_notMem_blank hst.colon
  have hvalue := zero_notMem_scalar hm.2
  simp [printMember, hkey, hcolon, hvalue]

theorem zero_notMem_printMembers {st : Style} (hst : st.Ok) {members : List (List UInt8 × Scalar)}
    (h : ∀ m ∈ members, PlainMember m) : 0 ∉ printMembers st members := by
  induction members with
  | nil => exact List.not_mem_nil
  | cons m ms ih =>
    rw [List.forall_mem_cons] at h
    have hm := zero_notMem_printMember hst h.1
    cases ms with
    | nil => exact hm
    | cons m' ms =>
      have hcomma := zero_notMem_blank hst.comma
      have hrest := ih h.2
      simp [printMembers, hm, hcomma, hrest]

theorem zero_notMem_print {st : Style} (hst : st.Ok) {members : List (List UInt8 × Scalar)}
    (h : ∀ m ∈ members, PlainMember m) : 0 ∉ print st members := by
  have hfirst := zero_notMem_blank hst.first
  have hlast := zero_notMem_blank hst.last
  have hmembers := zero_notMem_printMembers hst h
  simp [print, hfirst, hlast, hmembers]

end Json
