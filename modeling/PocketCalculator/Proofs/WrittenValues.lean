import PocketCalculator.Json.Reader
import PocketCalculator.Proofs.WrittenNumbers
import PocketCalculator.Proofs.WrittenTexts

/-! # Written values are read back

A value that a text may write keeps to the limits of the reader: whole numbers of not too many
digits, not too many arrays and objects inside each other, and no two fields of one name
(`Json.Fits`). Its written form consists of the tokens that one expects (`scan_printed`), and from
them the reader builds the value again (`builds_of_fits`), so that a written value is read back
(`read_printed`). -/

namespace PocketCalculator

namespace Json

/-- **A value within limits,** in which `n` more arrays and objects may be open inside each
other. -/
inductive Fits : Nat → Json → Prop where
  | null {n : Nat} : Fits n .null
  | bool {n : Nat} (b : Bool) : Fits n (.bool b)
  | integer {n : Nat} {k : Int} (h : (Nat.toDigits 10 k.natAbs).length ≤ integerDigitLimit) :
      Fits n (.integer k)
  | number {n : Nat} (x : Binary64) : Fits n (.number x)
  | string {n : Nat} (units : Units) : Fits n (.string units)
  | array {n : Nat} {items : List Json} (h : ∀ item ∈ items, Fits n item) :
      Fits (n + 1) (.array items)
  | object {n : Nat} {fields : List (Units × Json)} (hnames : (fields.map Prod.fst).Nodup)
      (h : ∀ field ∈ fields, Fits n field.2) : Fits (n + 1) (.object fields)

mutual

/-- The tokens of a value. -/
def tokens : Json → List JsonToken
  | array items => .openArray :: itemTokens items ++ [.closeArray]
  | object fields => .openObject :: fieldTokens fields ++ [.closeObject]
  | value => [.scalar value]

/-- The tokens of the items of an array, with commas in between. -/
def itemTokens : List Json → List JsonToken
  | [] => []
  | [item] => tokens item
  | item :: items => tokens item ++ .comma :: itemTokens items

/-- The tokens of the fields of an object, with commas in between. -/
def fieldTokens : List (Units × Json) → List JsonToken
  | [] => []
  | [(name, value)] => .scalar (.string name) :: .colon :: tokens value
  | (name, value) :: fields =>
    .scalar (.string name) :: .colon :: tokens value ++ .comma :: fieldTokens fields

end

/-! ### The written form in tokens -/

/-- What stands behind a value: a comma, a new line or nothing. -/
def EndsValue (rest : List Char) : Prop := ∀ c ∈ rest.head?, c = ',' ∨ c = '\n'

theorem EndsValue.endsNumber {rest : List Char} (h : EndsValue rest) : EndsNumber rest := by
  intro c hc
  rcases h c hc with rfl | rfl <;> decide

theorem endsValue_cons {c : Char} (h : c = ',' ∨ c = '\n') (rest : List Char) :
    EndsValue (c :: rest) := by
  intro d hd
  cases hd
  exact h

theorem scan_space {c : Char} (h : isSpace c = true) (rest : List Char) :
    scan (c :: rest) = scan rest := by
  rw [scan, if_pos h]

theorem scan_mark {c : Char} {token : JsonToken} (hs : isSpace c = false) (h : mark? c = some token)
    (rest : List Char) : scan (c :: rest) = token :: scan rest := by
  rw [scan, if_neg (by rw [hs]; decide)]
  split
  · next heq => rw [h] at heq; cases heq; rfl
  · next heq => rw [h] at heq; cases heq

theorem head_scanScalar {c : Char} {rest : List Char} {found : JsonToken × List Char}
    (h : scanScalar (c :: rest) = some found) : isSpace c = false ∧ mark? c = none := by
  have hnone : ∀ d ∈ [' ', '\t', '\n', '\r', '[', ']', '\x7b', '\x7d', ',', ':'],
      scanScalar (d :: rest) = none := by
    intro d hd
    simp only [List.mem_cons, List.not_mem_nil, or_false] at hd
    rcases hd with rfl | rfl | rfl | rfl | rfl | rfl | rfl | rfl | rfl | rfl <;> rfl
  have hc : c ∉ [' ', '\t', '\n', '\r', '[', ']', '\x7b', '\x7d', ',', ':'] := by
    intro hmem
    rw [hnone c hmem] at h
    cases h
  simp only [List.mem_cons, List.not_mem_nil, or_false, not_or] at hc
  simp [isSpace, mark?, hc]

theorem scan_scalar {cs rest : List Char} {token : JsonToken}
    (h : scanScalar cs = some (token, rest)) : scan cs = token :: scan rest := by
  cases cs with
  | nil => simp [scanScalar, scanWord, words, scanNumber, wholeDigits] at h
  | cons c cs =>
    obtain ⟨hs, hm⟩ := head_scanScalar h
    rw [scan, if_neg (by rw [hs]; decide)]
    split
    · next heq => rw [hm] at heq; cases heq
    · split
      · next heq => rw [h] at heq; cases heq; rfl
      · next heq => rw [h] at heq; cases heq

theorem scan_indented (level : Nat) (rest : List Char) :
    scan (indented level ++ rest) = scan rest := by
  have hspaces : ∀ k, scan (List.replicate k ' ' ++ rest) = scan rest := by
    intro k
    induction k with
    | zero => rfl
    | succ k ih => rw [List.replicate_succ, List.cons_append, scan_space (by decide), ih]
  rw [indented, List.cons_append, scan_space (by decide), hspaces]

theorem scan_quoted (units : Units) (rest : List Char) :
    scan (quotedUnits units ++ rest) = .scalar (.string units) :: scan rest :=
  scan_scalar (scanScalar_quoted units rest)

/-- A value whose written form is scanned into its tokens, at any level and before anything that
ends a value. -/
def Scans (value : Json) : Prop := ∀ level rest, EndsValue rest →
  scan (printed level value ++ rest) = tokens value ++ scan rest

theorem scan_printedItems (level : Nat) {rest : List Char} (hrest : EndsValue rest) :
    ∀ items : List Json, (∀ item ∈ items, Scans item) →
      scan (printedItems level items ++ rest) = itemTokens items ++ scan rest
  | [], _ => rfl
  | [item], h => by
    rw [printedItems, List.append_assoc, scan_indented, h item (by simp) level rest hrest,
      itemTokens]
  | item :: item' :: items, h => by
    have hcomma : EndsValue (',' :: (printedItems level (item' :: items) ++ rest)) :=
      endsValue_cons (Or.inl rfl) _
    have ih := scan_printedItems level hrest (item' :: items) fun i hi =>
      h i (List.mem_cons_of_mem _ hi)
    rw [printedItems, itemTokens]
    · simp only [List.append_assoc, List.cons_append]
      rw [scan_indented, h item (by simp) level _ hcomma, scan_mark (by decide) rfl, ih]
    · simp
    · simp

theorem scan_printedFields (level : Nat) {rest : List Char} (hrest : EndsValue rest) :
    ∀ fields : List (Units × Json), (∀ field ∈ fields, Scans field.2) →
      scan (printedFields level fields ++ rest) = fieldTokens fields ++ scan rest
  | [], _ => rfl
  | [(name, value)], h => by
    rw [printedFields, fieldTokens]
    simp only [List.append_assoc, List.cons_append]
    rw [scan_indented, scan_quoted, scan_mark (by decide) rfl, scan_space (by decide),
      h (name, value) (by simp) level rest hrest]
  | (name, value) :: field' :: fields, h => by
    have hcomma : EndsValue (',' :: (printedFields level (field' :: fields) ++ rest)) :=
      endsValue_cons (Or.inl rfl) _
    have ih := scan_printedFields level hrest (field' :: fields) fun f hf =>
      h f (List.mem_cons_of_mem _ hf)
    rw [printedFields, fieldTokens]
    · simp only [List.append_assoc, List.cons_append]
      rw [scan_indented, scan_quoted, scan_mark (by decide) rfl, scan_space (by decide),
        h (name, value) (by simp) level _ hcomma, scan_mark (by decide) rfl, ih]
    · simp
    · simp

/-- **The written form of a value** is scanned into its tokens. -/
theorem scan_printed {n : Nat} {value : Json} (h : Fits n value) : Scans value := by
  have hword : ∀ {text : List Char} {value : Json}, (text, value) ∈ words → ∀ rest,
      scan (text ++ rest) = .scalar value :: scan rest := fun h rest =>
    scan_scalar (scanScalar_word h rest)
  induction h with
  | null => exact fun level rest _ => hword (by simp [words, printed]) rest
  | bool b =>
    intro level rest _
    cases b
    · exact hword (by simp [words, printed]) rest
    · exact hword (by simp [words, printed]) rest
  | integer hk =>
    exact fun level rest hrest => scan_scalar (scanScalar_integerText hk hrest.endsNumber)
  | number x => exact fun level rest hrest => scan_scalar (scanScalar_numberText x hrest.endsNumber)
  | string units => exact fun level rest _ => scan_quoted units rest
  | @array n items _ ih =>
    intro level rest _
    cases items with
    | nil =>
      rw [printed, List.cons_append, List.cons_append, scan_mark (by decide) rfl,
        scan_mark (by decide) rfl]
      rfl
    | cons item items =>
      have hclose : EndsValue (indented level ++ ']' :: rest) := endsValue_cons (Or.inr rfl) _
      rw [printed]
      · simp only [List.cons_append, List.append_assoc, List.nil_append]
        rw [scan_mark (by decide) rfl, scan_printedItems _ hclose _ ih, scan_indented,
          scan_mark (by decide) rfl, tokens]
        simp
      · simp
  | @object n fields _ _ ih =>
    intro level rest _
    cases fields with
    | nil =>
      rw [printed, List.cons_append, List.cons_append, scan_mark (by decide) rfl,
        scan_mark (by decide) rfl]
      rfl
    | cons field fields =>
      have hclose : EndsValue (indented level ++ '\x7d' :: rest) := endsValue_cons (Or.inr rfl) _
      rw [printed]
      · simp only [List.cons_append, List.append_assoc, List.nil_append]
        rw [scan_mark (by decide) rfl, scan_printedFields _ hclose _ ih, scan_indented,
          scan_mark (by decide) rfl, tokens]
        simp
      · simp

/-! ### The value of tokens -/

/-- A value that the reader builds from its tokens, within what is open around it. -/
def Builds (around : List Frame) (value : Json) : Prop :=
  (tokens value).foldlM step (.value around) = .ok (supply value around)

theorem foldlM_itemTokens (around : List Frame) : ∀ (items before : List Json), items ≠ [] →
    (∀ item ∈ items, ∀ before, Builds (.array before :: around) item) →
      (itemTokens items).foldlM step (.value (.array before :: around)) =
        .ok (.nextItem (items.reverse ++ before) around)
  | [], _, h, _ => absurd rfl h
  | [item], before, _, h => h item (by simp) before
  | item :: item' :: items, before, _, h => by
    have hitem := h item (by simp) before
    have ih := foldlM_itemTokens around (item' :: items) (item :: before) (by simp)
      fun i hi => h i (List.mem_cons_of_mem _ hi)
    rw [itemTokens, List.foldlM_append, hitem]
    · rw [List.reverse_cons, List.append_assoc, List.singleton_append]
      exact ih
    · simp

/-- Where an array could also end, its first item is read like any other. -/
theorem foldlM_firstItem (around : List Frame) {items : List Json} (hne : items ≠ []) :
    (itemTokens items).foldlM step (.firstItem around) =
      (itemTokens items).foldlM step (.value (.array [] :: around)) := by
  have hfirst : ∀ value : Json, ∃ token behind, tokens value = token :: behind ∧
      step (.firstItem around) token = step (.value (.array [] :: around)) token := by
    intro value
    cases value <;> exact ⟨_, _, rfl, rfl⟩
  cases items with
  | nil => exact absurd rfl hne
  | cons item items =>
    obtain ⟨token, behind, heq, hstep⟩ := hfirst item
    cases items with
    | nil => rw [itemTokens, heq, List.foldlM_cons, List.foldlM_cons, hstep]
    | cons item' items =>
      rw [itemTokens, heq, List.cons_append, List.foldlM_cons, List.foldlM_cons, hstep]
      simp

theorem putField_of_not_mem {fields : List (Units × Json)} {name : Units} (value : Json)
    (h : name ∉ fields.map Prod.fst) : putField fields name value = fields ++ [(name, value)] := by
  rw [putField, if_neg]
  intro hany
  obtain ⟨field, hmem, hname⟩ := List.any_eq_true.mp hany
  exact h (List.mem_map.mpr ⟨field, hmem, eq_of_beq hname⟩)

theorem foldlM_fieldToken {around : List Frame} {before : List (Units × Json)} {name : Units}
    {value : Json} (hnew : name ∉ before.map Prod.fst)
    (h : Builds (.field before name :: around) value) :
    (.scalar (.string name) :: .colon :: tokens value : List JsonToken).foldlM step
        (.name before around) = .ok (.nextField (before ++ [(name, value)]) around) := by
  rw [Builds, supply, putField_of_not_mem value hnew] at h
  exact h

theorem foldlM_fieldTokens (around : List Frame) : ∀ (fields before : List (Units × Json)),
    fields ≠ [] → ((before ++ fields).map Prod.fst).Nodup →
    (∀ field ∈ fields, ∀ before, Builds (.field before field.1 :: around) field.2) →
      (fieldTokens fields).foldlM step (.name before around) =
        .ok (.nextField (before ++ fields) around)
  | [], _, h, _, _ => absurd rfl h
  | (name, value) :: fields, before, _, hnames, h => by
    have hnew : name ∉ before.map Prod.fst := by
      intro hmem
      rw [List.map_append, List.nodup_append] at hnames
      exact hnames.2.2 name hmem name (by simp) rfl
    have hfield := foldlM_fieldToken hnew (h (name, value) (by simp) before)
    cases fields with
    | nil => exact hfield
    | cons field' fields =>
      have hmove : before ++ [(name, value)] ++ field' :: fields =
          before ++ (name, value) :: field' :: fields := by simp
      have ih := foldlM_fieldTokens around (field' :: fields) (before ++ [(name, value)]) (by simp)
        (by rw [hmove]; exact hnames) fun f hf => h f (List.mem_cons_of_mem _ hf)
      rw [hmove] at ih
      rw [fieldTokens, List.foldlM_append, hfield]
      · exact ih
      · simp

theorem foldlM_firstField (around : List Frame) {fields : List (Units × Json)} (hne : fields ≠ []) :
    (fieldTokens fields).foldlM step (.firstField around) =
      (fieldTokens fields).foldlM step (.name [] around) := by
  cases fields with
  | nil => exact absurd rfl hne
  | cons field fields => cases fields <;> rfl

/-- **A value is built from its tokens,** where no more than it needs is open already. -/
theorem builds_of_fits {n : Nat} {value : Json} (h : Fits n value) :
    ∀ around : List Frame, around.length + n ≤ depthLimit → Builds around value := by
  induction h with
  | null => exact fun _ _ => rfl
  | bool b => exact fun _ _ => rfl
  | integer hk => exact fun _ _ => rfl
  | number x => exact fun _ _ => rfl
  | string units => exact fun _ _ => rfl
  | @array n items _ ih =>
    intro around hdepth
    have hopen : around.length < depthLimit := by omega
    have henter : step (.value around) .openArray = .ok (.firstItem around) := if_pos hopen
    rw [Builds, tokens, List.cons_append, List.foldlM_cons, henter]
    by_cases hne : items = []
    · subst hne
      rfl
    · have hitems := foldlM_itemTokens around items [] hne fun item hi before =>
        ih item hi _ (by rw [List.length_cons]; omega)
      rw [← foldlM_firstItem around hne, List.append_nil] at hitems
      show (itemTokens items ++ [JsonToken.closeArray]).foldlM step (.firstItem around) = _
      rw [List.foldlM_append, hitems]
      show (.ok (supply (.array items.reverse.reverse) around) : Except JsonError Expecting) = _
      rw [List.reverse_reverse]
  | @object n fields hnames _ ih =>
    intro around hdepth
    have hopen : around.length < depthLimit := by omega
    have henter : step (.value around) .openObject = .ok (.firstField around) := if_pos hopen
    rw [Builds, tokens, List.cons_append, List.foldlM_cons, henter]
    by_cases hne : fields = []
    · subst hne
      rfl
    · have hfields := foldlM_fieldTokens around fields [] hne hnames fun field hf before =>
        ih field hf _ (by rw [List.length_cons]; omega)
      rw [← foldlM_firstField around hne, List.nil_append] at hfields
      show (fieldTokens fields ++ [JsonToken.closeObject]).foldlM step (.firstField around) = _
      rw [List.foldlM_append, hfields]
      rfl

/-- **A written value is read back.** -/
theorem read_printed {value : Json} (h : Fits depthLimit value) :
    read (printed 0 value) = .ok value := by
  have hscan := scan_printed h 0 [] (by intro c hc; cases hc)
  have hbuild := builds_of_fits h [] (by simp)
  have hnil : scan [] = [] := by rw [scan]
  rw [List.append_nil, hnil, List.append_nil] at hscan
  rw [read, hscan, hbuild]
  rfl

end Json

end PocketCalculator
