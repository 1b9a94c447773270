import PocketCalculator.Proofs.WrittenValues

/-! # Values that are read keep to the limits

A token that the scanner finds is within the limits on numbers (`scalarFits_of_mem_scan`). What is
open around a token, and what is built so far, is within the limits on depth and on names of fields
(`Expecting.Fits`); a token keeps this up (`fits_step`). So a value that has been read is one that
is read again when it has been written (`fits_of_read`). -/

namespace PocketCalculator

namespace Json

/-! ### Tokens -/

theorem ofDigitChars_lt {ds : List Char} (h : ∀ c ∈ ds, c.isDigit = true) :
    Nat.ofDigitChars 10 ds 0 < tenTo ds.length := by
  induction ds with
  | nil => exact Nat.one_pos
  | cons c ds ih =>
    have hall : ∀ d ∈ "0123456789".toList, d.toNat - '0'.toNat < 10 :=
      forall_of_all (by decide)
    have hc := hall c (Numeral.mem_digits_of_isDigit (h c (by simp)))
    have ih := ih fun d hd => h d (List.mem_cons_of_mem _ hd)
    have hsplit : Nat.ofDigitChars 10 (c :: ds) 0 =
        tenTo ds.length * (c.toNat - '0'.toNat) + Nat.ofDigitChars 10 ds 0 := by
      rw [Nat.ofDigitChars_cons, Nat.ofDigitChars_eq_ofDigitChars_zero, Nat.mul_zero, Nat.zero_add]
      rfl
    rw [hsplit, List.length_cons, tenTo_add, tenTo_one]
    generalize c.toNat - '0'.toNat = digit at hc
    generalize Nat.ofDigitChars 10 ds 0 = behind at ih
    calc tenTo ds.length * digit + behind < tenTo ds.length * digit + tenTo ds.length := by omega
      _ = tenTo ds.length * (digit + 1) := (Nat.mul_succ _ _).symm
      _ ≤ tenTo ds.length * 10 := Nat.mul_le_mul_left _ (by omega)

theorem isDigit_of_mem_wholeDigits {cs : List Char} :
    ∀ c ∈ wholeDigits cs, c.isDigit = true := by
  unfold wholeDigits
  split
  · exact isDigit_of_mem_zero
  · exact List.all_eq_true.mp List.all_takeWhile

theorem fits_ofDigitChars (n : Nat) (negative : Bool) {ds : List Char}
    (h : ∀ c ∈ ds, c.isDigit = true) (hne : ds ≠ []) (hlen : ds.length ≤ integerDigitLimit) :
    Fits n (.integer (if negative then -(Nat.ofDigitChars 10 ds 0 : Int)
      else Nat.ofDigitChars 10 ds 0)) := by
  have habs : (if negative then -(Nat.ofDigitChars 10 ds 0 : Int)
      else Nat.ofDigitChars 10 ds 0).natAbs = Nat.ofDigitChars 10 ds 0 := by
    split_ifs
    · rw [Int.natAbs_neg, Int.natAbs_natCast]
    · rw [Int.natAbs_natCast]
  refine .integer ?_
  rw [habs]
  have hdigits := (Nat.length_toDigits_le_iff (by decide) (List.length_pos_iff.mpr hne)).mpr
    (ofDigitChars_lt h)
  omega

/-- A token that is no scalar beyond the limits. -/
def ScalarFits : JsonToken → Prop
  | .scalar value => ∀ n, Fits n value
  | _ => True

theorem scalarFits_of_scanNumber {negative : Bool} {cs rest : List Char} {token : JsonToken}
    (h : scanNumber negative cs = some (token, rest)) : ScalarFits token := by
  unfold scanNumber at h
  simp only at h
  by_cases hne : wholeDigits cs = []
  · rw [if_pos hne] at h
    cases h
  rw [if_neg hne] at h
  split at h
  · by_cases hlen : integerDigitLimit < (wholeDigits cs).length
    · rw [if_pos hlen] at h
      cases h
      trivial
    · rw [if_neg hlen] at h
      cases h
      exact fun n =>
        fits_ofDigitChars n negative isDigit_of_mem_wholeDigits hne (Nat.not_lt.mp hlen)
  · cases h
    exact fun n => .number _
  · cases h
    exact fun n => .number _

theorem scalarFits_of_scanWord {cs rest : List Char} {token : JsonToken}
    (h : scanWord cs = some (token, rest)) : ScalarFits token := by
  obtain ⟨word, hfind, heq⟩ := Option.map_eq_some_iff.mp h
  cases heq
  have hmem := List.mem_of_find?_eq_some hfind
  intro n
  simp only [words, List.mem_cons, List.not_mem_nil, or_false] at hmem
  rcases hmem with rfl | rfl | rfl | rfl | rfl | rfl
  · exact .null
  · exact .bool _
  · exact .bool _
  · exact .number _
  · exact .number _
  · exact .number _

theorem scalarFits_of_scanScalar {cs rest : List Char} {token : JsonToken}
    (h : scanScalar cs = some (token, rest)) : ScalarFits token := by
  unfold scanScalar at h
  split at h
  · obtain ⟨found, -, heq⟩ := Option.map_eq_some_iff.mp h
    cases heq
    exact fun n => .string _
  · split at h
    · next found hword =>
      cases h
      exact scalarFits_of_scanWord hword
    · split at h
      · exact scalarFits_of_scanNumber h
      · exact scalarFits_of_scanNumber h

/-- **The scanner finds no scalar beyond the limits.** -/
theorem scalarFits_of_mem_scan {cs : List Char} {token : JsonToken} (h : token ∈ scan cs) :
    ScalarFits token := by
  have hmark : ∀ {c : Char} {token : JsonToken}, mark? c = some token → ScalarFits token := by
    intro c token hc
    unfold mark? at hc
    split_ifs at hc <;> cases hc <;> trivial
  fun_induction scan cs with
  | case1 => cases h
  | case2 c rest hs ih => exact ih h
  | case3 c rest hs mark hm ih =>
    rcases List.mem_cons.mp h with rfl | h
    · exact hmark hm
    · exact ih h
  | case4 c rest hs hm found behind heq ih =>
    rcases List.mem_cons.mp h with rfl | h
    · exact scalarFits_of_scanScalar heq
    · exact ih h
  | case5 c rest hs hm heq =>
    cases List.mem_singleton.mp h
    trivial

/-! ### What is built so far -/

/-- Fields of different names, with values within limits. -/
structure FieldsFit (n : Nat) (fields : List (Units × Json)) : Prop where
  names : (fields.map Prod.fst).Nodup
  values : ∀ field ∈ fields, Fits n field.2

/-- What is in an open array or object so far. -/
def Frame.Fits (n : Nat) : Frame → Prop
  | .array before => ∀ item ∈ before, Json.Fits n item
  | .field before _ => FieldsFit n before

/-- What is open, each inside the next. -/
inductive AroundFits : List Frame → Prop where
  | nil : AroundFits []
  | cons {frame : Frame} {around : List Frame} (hdepth : around.length < depthLimit)
      (h : frame.Fits (depthLimit - (around.length + 1))) (hout : AroundFits around) :
      AroundFits (frame :: around)

/-- What is built so far, and what is open around it. -/
def Expecting.Fits : Expecting → Prop
  | .value around => AroundFits around
  | .firstItem around | .firstField around => AroundFits around ∧ around.length < depthLimit
  | .nextItem before around => AroundFits (.array before :: around)
  | .nextField before around | .name before around => AroundFits (.field before [] :: around)
  | .colon before label around => AroundFits (.field before label :: around)
  | .nothing whole => Json.Fits depthLimit whole

theorem map_fst_putField_of_mem {fields : List (Units × Json)} {name : Units} (value : Json)
    (h : name ∈ fields.map Prod.fst) :
    (putField fields name value).map Prod.fst = fields.map Prod.fst := by
  obtain ⟨field, hmem, hname⟩ := List.mem_map.mp h
  have hany : (fields.any fun field => field.1 == name) = true :=
    List.any_eq_true.mpr ⟨field, hmem, beq_iff_eq.mpr hname⟩
  rw [putField, if_pos hany, List.map_map]
  refine List.map_congr_left fun field _ => ?_
  rw [Function.comp_apply]
  split_ifs with heq
  · exact (eq_of_beq heq).symm
  · rfl

theorem FieldsFit.putField {n : Nat} {fields : List (Units × Json)} {value : Json}
    (h : FieldsFit n fields) (name : Units) (hvalue : Fits n value) :
    FieldsFit n (putField fields name value) := by
  constructor
  · by_cases hmem : name ∈ fields.map Prod.fst
    · rw [map_fst_putField_of_mem value hmem]
      exact h.names
    · rw [putField_of_not_mem value hmem, List.map_append, List.nodup_append]
      refine ⟨h.names, by simp, ?_⟩
      rintro a ha b hb rfl
      rw [List.map_singleton, List.mem_singleton] at hb
      rw [hb] at ha
      exact hmem ha
  · intro field hf
    unfold Json.putField at hf
    split_ifs at hf
    · obtain ⟨old, hold, heq⟩ := List.mem_map.mp hf
      split_ifs at heq
      · rw [← heq]
        exact hvalue
      · rw [← heq]
        exact h.values old hold
    · rcases List.mem_append.mp hf with hf | hf
      · exact h.values field hf
      · rw [List.mem_singleton.mp hf]
        exact hvalue

/-! ### One token -/

theorem fits_supply {value : Json} {around : List Frame}
    (hvalue : Json.Fits (depthLimit - around.length) value) (h : AroundFits around) :
    (supply value around).Fits := by
  cases h with
  | nil => exact hvalue
  | @cons frame around hdepth hframe hout =>
    cases frame with
    | array before =>
      refine .cons hdepth (fun item hitem => ?_) hout
      rcases List.mem_cons.mp hitem with rfl | hitem
      · exact hvalue
      · exact hframe item hitem
    | field before name => exact .cons hdepth (hframe.putField name hvalue) hout

theorem fits_beginValue {around : List Frame} {token : JsonToken} {next : Expecting}
    (h : AroundFits around) (htoken : ScalarFits token)
    (hstep : beginValue around token = .ok next) : next.Fits := by
  unfold beginValue at hstep
  split at hstep
  · cases hstep
    exact fits_supply (htoken _) h
  · unfold enter at hstep
    split_ifs at hstep with hopen
    cases hstep
    exact ⟨h, hopen⟩
  · unfold enter at hstep
    split_ifs at hstep with hopen
    cases hstep
    exact ⟨h, hopen⟩
  · cases hstep
  · cases hstep

theorem fits_beginField {before : List (Units × Json)} {around : List Frame} {token : JsonToken}
    {next : Expecting} (h : AroundFits (.field before [] :: around))
    (hstep : beginField before around token = .ok next) : next.Fits := by
  unfold beginField at hstep
  split at hstep
  · cases hstep
    cases h with
    | cons hdepth hframe hout => exact .cons hdepth hframe hout
  · cases hstep

theorem fits_closeArray {before : List Json} {around : List Frame}
    (h : AroundFits (.array before :: around)) :
    (supply (.array before.reverse) around).Fits := by
  cases h with
  | cons hdepth hframe hout =>
    refine fits_supply ?_ hout
    have hlevel : depthLimit - around.length = depthLimit - (around.length + 1) + 1 := by omega
    rw [hlevel]
    exact .array fun item hitem => hframe item (List.mem_reverse.mp hitem)

theorem fits_closeObject {before : List (Units × Json)} {around : List Frame}
    (h : AroundFits (.field before [] :: around)) : (supply (.object before) around).Fits := by
  cases h with
  | cons hdepth hframe hout =>
    refine fits_supply ?_ hout
    have hlevel : depthLimit - around.length = depthLimit - (around.length + 1) + 1 := by omega
    rw [hlevel]
    exact .object hframe.names hframe.values

theorem aroundFits_openArray {around : List Frame} (h : AroundFits around)
    (hopen : around.length < depthLimit) : AroundFits (.array [] :: around) :=
  .cons hopen (fun _ hitem => nomatch hitem) h

theorem aroundFits_openObject {around : List Frame} (h : AroundFits around)
    (hopen : around.length < depthLimit) : AroundFits (.field [] [] :: around) :=
  .cons hopen ⟨List.nodup_nil, fun _ hfield => nomatch hfield⟩ h

/-- **A token keeps what is built so far within the limits.** -/
theorem fits_step {now next : Expecting} {token : JsonToken} (h : now.Fits)
    (htoken : ScalarFits token) (hstep : step now token = .ok next) : next.Fits := by
  unfold step at hstep
  split at hstep
  -- a value, or the first item of an array or its end
  · exact fits_beginValue h htoken hstep
  · cases hstep
    exact fits_closeArray (aroundFits_openArray h.1 h.2)
  · exact fits_beginValue (aroundFits_openArray h.1 h.2) htoken hstep
  -- behind an item
  · cases hstep
    exact fits_closeArray h
  · cases hstep
    exact h
  -- the first field of an object, or its end
  · cases hstep
    exact fits_closeObject (aroundFits_openObject h.1 h.2)
  · exact fits_beginField (aroundFits_openObject h.1 h.2) hstep
  -- behind a field
  · cases hstep
    exact fits_closeObject h
  · cases hstep
    exact h
  · exact fits_beginField h hstep
  · cases hstep
    exact h
  · cases hstep

theorem fits_foldlM {tokens : List JsonToken} {now last : Expecting} (h : now.Fits)
    (htokens : ∀ token ∈ tokens, ScalarFits token) (hrun : tokens.foldlM step now = .ok last) :
    last.Fits := by
  induction tokens generalizing now with
  | nil =>
    cases hrun
    exact h
  | cons token tokens ih =>
    rw [List.foldlM_cons] at hrun
    cases hstep : step now token with
    | error cause =>
      rw [hstep] at hrun
      cases hrun
    | ok next =>
      rw [hstep] at hrun
      exact ih (fits_step h (htokens token (by simp)) hstep)
        (fun token ht => htokens token (List.mem_cons_of_mem _ ht)) hrun

/-- **A value that is read keeps to the limits.** -/
theorem fits_of_read {cs : List Char} {value : Json} (h : read cs = .ok value) :
    Fits depthLimit value := by
  unfold read at h
  split at h
  · next last hrun =>
    cases h
    have hstart : (Expecting.value []).Fits := AroundFits.nil
    exact fits_foldlM hstart (fun _ => scalarFits_of_mem_scan) hrun
  · cases h
  · cases h

end Json

end PocketCalculator
