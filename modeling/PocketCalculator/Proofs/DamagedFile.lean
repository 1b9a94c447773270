import PocketCalculator.Proofs.Reopening
import Mathlib.Algebra.Ring.Int.Defs
import Mathlib.Tactic.SplitIfs

/-! # A history is opened whatever its file holds

Text that is not a written value, a value that is no list of entries and a list with a faulty entry
all count as an empty history. The reader gives up only at a limit (`Json.MeetsLimit`): a whole
number of too many digits, or one array or object too many inside the others. So apart from the
limits a file stops its history from being opened exactly if its bytes are no text
(`load_of_file`). -/

namespace PocketCalculator

/-! ### The limits of the reader -/

/-- How a token changes the number of arrays and objects that are open. -/
def JsonToken.level : JsonToken → Int
  | .openArray | .openObject => 1
  | .closeArray | .closeObject => -1
  | _ => 0

namespace Json

/-- The number of arrays and objects that are open after tokens. -/
def levels (tokens : List JsonToken) : Int := (tokens.map JsonToken.level).sum

/-- The number of arrays and objects that are open. -/
def Expecting.depth : Expecting → Nat
  | .value around => around.length
  | .firstItem around | .nextItem _ around | .firstField around | .nextField _ around
  | .name _ around | .colon _ _ around => around.length + 1
  | .nothing _ => 0

/-- **A limit is met:** behind tokens that may begin a value there is a whole number of too many
digits, or one array or object more than may be open. -/
def MeetsLimit (cs : List Char) : Prop :=
  ∃ before token after, scan cs = before ++ token :: after ∧
    (∃ now, before.foldlM step (.value []) = .ok now) ∧
    ((∃ n, token = .tooLong n) ∨ token.level = 1 ∧ (depthLimit : Int) ≤ levels before)

theorem depth_supply (value : Json) (around : List Frame) :
    (supply value around).depth = around.length := by
  match around with
  | [] => rfl
  | .array _ :: _ => rfl
  | .field _ _ :: _ => rfl

theorem depth_beginValue {around : List Frame} {token : JsonToken} {next : Expecting}
    (h : beginValue around token = .ok next) :
    (next.depth : Int) = around.length + token.level := by
  unfold beginValue enter at h
  split at h
  · cases h
    rw [depth_supply]
    exact (Int.add_zero _).symm
  · split_ifs at h
    cases h
    rfl
  · split_ifs at h
    cases h
    rfl
  · cases h
  · cases h

theorem depth_close (value : Json) (around : List Frame) :
    ((supply value around).depth : Int) = (around.length + 1 : Nat) + -1 := by
  rw [depth_supply]
  omega

/-- **A token changes the depth by its level.** -/
theorem depth_step {now next : Expecting} {token : JsonToken} (h : step now token = .ok next) :
    (next.depth : Int) = now.depth + token.level := by
  unfold step beginField at h
  split at h
  -- a value, or the first item of an array or its end
  · exact depth_beginValue h
  · cases h
    exact depth_close _ _
  · exact depth_beginValue h
  -- behind an item
  · cases h
    exact depth_close _ _
  · cases h
    exact (Int.add_zero _).symm
  -- the first field of an object, or its end
  · cases h
    exact depth_close _ _
  · split at h <;> cases h
    exact (Int.add_zero _).symm
  -- behind a field
  · cases h
    exact depth_close _ _
  · cases h
    exact (Int.add_zero _).symm
  · split at h <;> cases h
    exact (Int.add_zero _).symm
  · cases h
    exact (Int.add_zero _).symm
  · cases h

theorem depth_foldlM {tokens : List JsonToken} {now last : Expecting}
    (h : tokens.foldlM step now = .ok last) : (last.depth : Int) = now.depth + levels tokens := by
  induction tokens generalizing now with
  | nil =>
    cases h
    exact (Int.add_zero _).symm
  | cons token tokens ih =>
    rw [List.foldlM_cons] at h
    cases hstep : step now token with
    | error cause =>
      rw [hstep] at h
      cases h
    | ok next =>
      rw [hstep] at h
      have hlevel : levels (token :: tokens) = token.level + levels tokens := List.sum_cons
      have hnext := depth_step hstep
      have hlast := ih h
      omega

/-- The token at which the reader gives up, and what it has read before. -/
theorem exists_of_foldlM_error {tokens : List JsonToken} {now : Expecting} {cause : JsonError}
    (h : tokens.foldlM step now = .error cause) :
    ∃ before token after mid, tokens = before ++ token :: after ∧
      before.foldlM step now = .ok mid ∧ step mid token = .error cause := by
  induction tokens generalizing now with
  | nil => cases h
  | cons token tokens ih =>
    rw [List.foldlM_cons] at h
    cases hstep : step now token with
    | error cause' =>
      rw [hstep] at h
      cases h
      exact ⟨[], token, tokens, now, rfl, rfl, hstep⟩
    | ok next =>
      rw [hstep] at h
      obtain ⟨before, last, after, mid, rfl, hbefore, hlast⟩ := ih h
      refine ⟨token :: before, last, after, mid, rfl, ?_, hlast⟩
      rw [List.foldlM_cons, hstep]
      exact hbefore

theorem limit_of_beginValue {around : List Frame} {token : JsonToken} {cause : JsonError}
    (h : beginValue around token = .error cause) (hcause : cause ≠ .malformed) :
    (∃ n, token = .tooLong n) ∨ token.level = 1 ∧ depthLimit ≤ around.length := by
  unfold beginValue enter at h
  split at h
  · cases h
  · split_ifs at h with hopen
    exact .inr ⟨rfl, Nat.not_lt.mp hopen⟩
  · split_ifs at h with hopen
    exact .inr ⟨rfl, Nat.not_lt.mp hopen⟩
  · exact .inl ⟨_, rfl⟩
  · cases h
    exact absurd rfl hcause

/-- What is neither read nor malformed is beyond a limit. -/
theorem limit_of_step {now : Expecting} {token : JsonToken} {cause : JsonError}
    (h : step now token = .error cause) (hcause : cause ≠ .malformed) :
    (∃ n, token = .tooLong n) ∨ token.level = 1 ∧ depthLimit ≤ now.depth := by
  have hname : ∀ {before around}, beginField before around token ≠ .error cause := by
    intro before around hfield
    unfold beginField at hfield
    split at hfield <;> cases hfield
    exact hcause rfl
  unfold step at h
  split at h
  · exact limit_of_beginValue h hcause
  · cases h
  · exact limit_of_beginValue h hcause
  · cases h
  · cases h
  · cases h
  · exact absurd h hname
  · cases h
  · cases h
  · exact absurd h hname
  · cases h
  · cases h
    exact absurd rfl hcause

theorem meetsLimit_of_read {cs : List Char} {cause : JsonError} (h : read cs = .error cause)
    (hcause : cause ≠ .malformed) : MeetsLimit cs := by
  unfold read at h
  split at h
  · cases h
  · cases h
    exact absurd rfl hcause
  · next found hfold =>
    cases h
    obtain ⟨before, token, after, mid, htokens, hbefore, hstep⟩ := exists_of_foldlM_error hfold
    refine ⟨before, token, after, htokens, ⟨mid, hbefore⟩, ?_⟩
    have hdepth := depth_foldlM hbefore
    have hstart : (Expecting.value []).depth = 0 := rfl
    refine (limit_of_step hstep hcause).imp_right fun hlimit => ⟨hlimit.1, ?_⟩
    omega

theorem within_of_beginValue {around : List Frame} {token : JsonToken} {next : Expecting}
    (h : beginValue around token = .ok next) :
    (∀ n, token ≠ .tooLong n) ∧ (token.level = 1 → around.length < depthLimit) := by
  unfold beginValue enter at h
  split at h
  · exact ⟨nofun, nofun⟩
  · split_ifs at h with hopen
    exact ⟨nofun, fun _ => hopen⟩
  · split_ifs at h with hopen
    exact ⟨nofun, fun _ => hopen⟩
  · cases h
  · cases h

theorem within_of_step {now next : Expecting} {token : JsonToken} (h : step now token = .ok next) :
    (∀ n, token ≠ .tooLong n) ∧ (token.level = 1 → now.depth < depthLimit) := by
  unfold step beginField at h
  split at h
  · exact within_of_beginValue h
  · exact ⟨nofun, nofun⟩
  · exact within_of_beginValue h
  · exact ⟨nofun, nofun⟩
  · exact ⟨nofun, nofun⟩
  · exact ⟨nofun, nofun⟩
  · split at h <;> cases h
    exact ⟨nofun, nofun⟩
  · exact ⟨nofun, nofun⟩
  · exact ⟨nofun, nofun⟩
  · split at h <;> cases h
    exact ⟨nofun, nofun⟩
  · exact ⟨nofun, nofun⟩
  · cases h

/-- **A value that is read** meets no limit. -/
theorem not_meetsLimit_of_read {cs : List Char} {value : Json} (h : read cs = .ok value) :
    ¬ MeetsLimit cs := by
  rintro ⟨before, token, after, htokens, ⟨now, hbefore⟩, hlimit⟩
  unfold read at h
  rw [htokens, List.foldlM_append, hbefore] at h
  have hdepth := depth_foldlM hbefore
  have hstart : (Expecting.value []).depth = 0 := rfl
  cases hstep : step now token with
  | error cause =>
    simp only [bind, Except.bind, List.foldlM_cons, hstep] at h
    cases h
  | ok next =>
    obtain ⟨hshort, hopen⟩ := within_of_step hstep
    rcases hlimit with ⟨n, rfl⟩ | ⟨hlevel, hdeep⟩
    · exact hshort n rfl
    · have := hopen hlevel
      omega

/-! ### Texts beyond the limits -/

theorem scan_tooLong {whole : List Char} (hw : IsWhole whole)
    (hlong : integerDigitLimit < whole.length) : scan whole = [.tooLong whole.length] := by
  have hnumber : scanNumber false (whole ++ []) = _ :=
    scanNumber_whole false hw fun c hc => nomatch hc
  rw [if_pos hlong, List.append_nil] at hnumber
  have hscalar : scanScalar whole = _ := scanScalar_signed hnumber
  rw [scan_scalar hscalar, scan]

theorem read_tooLong {whole : List Char} (hw : IsWhole whole)
    (hlong : integerDigitLimit < whole.length) : read whole = .error (.tooLong whole.length) := by
  unfold read
  rw [scan_tooLong hw hlong]
  rfl

theorem scan_openArrays : ∀ n, scan (List.replicate n '[') = List.replicate n .openArray
  | 0 => by rw [List.replicate_zero, scan, List.replicate_zero]
  | n + 1 => by
    rw [List.replicate_succ, scan_mark (by decide) rfl, scan_openArrays n, List.replicate_succ]

theorem foldlM_openArrays : ∀ (n : Nat) {around : List Frame}, around.length < depthLimit →
    depthLimit < around.length + 1 + n →
      (List.replicate n JsonToken.openArray).foldlM step (.firstItem around) = .error .tooDeep
  | 0, around, hopen, h => by omega
  | n + 1, around, hopen, h => by
    have hstep : step (.firstItem around) .openArray =
      enter (.array [] :: around) (.firstItem (.array [] :: around)) := rfl
    rw [List.replicate_succ, List.foldlM_cons, hstep, enter]
    split
    · next hinner => exact foldlM_openArrays n hinner (by rw [List.length_cons]; omega)
    · rfl

theorem read_tooDeep {n : Nat} (h : depthLimit < n) :
    read (List.replicate n '[') = .error .tooDeep := by
  obtain ⟨n, rfl⟩ := Nat.exists_eq_add_one_of_ne_zero (Nat.ne_zero_of_lt h)
  have hinner : (List.replicate n JsonToken.openArray).foldlM step (.firstItem []) =
      .error .tooDeep :=
    foldlM_openArrays n (by decide) (by simpa [Nat.add_comm] using h)
  unfold read
  rw [scan_openArrays, List.replicate_succ, List.foldlM_cons]
  simp only [show step (.value []) .openArray = .ok (.firstItem []) from rfl, bind, Except.bind,
    hinner]

end Json

/-! ### The file of a history -/

/-- **A readable history:** the bytes are the text of a value that is a list of entries. -/
def IsHistory (bytes : ByteArray) (es : List Entry) : Prop :=
  ∃ text value, String.fromUTF8? bytes = some text ∧ Json.read text.toList = .ok value ∧
    Entry.listOfJson value = .ok es

/-- The bytes are a text at which the reader meets a limit. -/
def BeyondLimits (bytes : ByteArray) : Prop :=
  ∃ text, String.fromUTF8? bytes = some text ∧ Json.MeetsLimit text.toList

namespace History

variable {files : FileTree} {path : Path} {bytes : ByteArray}

theorem fromUTF8?_eq_none_iff : String.fromUTF8? bytes = none ↔ ¬ bytes.IsValidUTF8 := by
  unfold String.fromUTF8?
  split <;> simp_all

theorem ofContents_of_within {text : String} (h : ¬ Json.MeetsLimit text.toList) :
    ∃ found, ofContents text = .ok found := by
  unfold ofContents
  split
  · exact ⟨_, rfl⟩
  · next hread => exact absurd (Json.meetsLimit_of_read hread (by simp)) h
  · next hread => exact absurd (Json.meetsLimit_of_read hread (by simp)) h
  · split <;> exact ⟨_, rfl⟩

theorem ofContents_tooLong {whole : List Char} (hw : IsWhole whole)
    (hlong : integerDigitLimit < whole.length) :
    ofContents (String.ofList whole) = .error (.integer (.tooLong whole.length)) := by
  unfold ofContents
  rw [String.toList_ofList, Json.read_tooLong hw hlong]

theorem ofContents_tooDeep {n : Nat} (h : Json.depthLimit < n) :
    ofContents (String.ofList (List.replicate n '[')) = .error .tooDeep := by
  unfold ofContents
  rw [String.toList_ofList, Json.read_tooDeep h]

theorem notes_of_not_entries {found : Contents} (h : ∀ es, found ≠ .entries es) :
    Contents.list found = [] ∧ ∃ note, Contents.notes path found = [note] := by
  cases found with
  | entries es => exact absurd rfl (h es)
  | malformed => exact ⟨rfl, _, rfl⟩
  | unexpected cause => exact ⟨rfl, _, rfl⟩

variable (hfile : files.read? path = .ok (some bytes))
include hfile

theorem ofFile_notText (hbytes : ¬ bytes.IsValidUTF8) : ofFile files path = .error .notText := by
  simp only [ofFile, hfile, fromUTF8?_eq_none_iff.mpr hbytes]

/-- What is found in a file of text is its entries, if it is a readable history. -/
theorem exists_ofFile (hbytes : bytes.IsValidUTF8) (hlimits : ¬ BeyondLimits bytes) :
    ∃ found, ofFile files path = .ok found ∧ ∀ es, found = .entries es ↔ IsHistory bytes es := by
  have htext : String.fromUTF8? bytes = some (String.fromUTF8 bytes hbytes) := dif_pos hbytes
  generalize String.fromUTF8 bytes hbytes = text at htext
  obtain ⟨found, hcontents⟩ := ofContents_of_within fun h => hlimits ⟨text, htext, h⟩
  refine ⟨found, by simp only [ofFile, hfile, htext, hcontents], fun es => ?_⟩
  have hiff := @ofContents_eq_entries_iff text es
  rw [hcontents, Except.ok.injEq] at hiff
  rw [hiff]
  constructor
  · rintro ⟨value, hread, hlist⟩
    exact ⟨text, value, htext, hread, hlist⟩
  · rintro ⟨text', value, htext', hread, hlist⟩
    rw [htext, Option.some.injEq] at htext'
    rw [← htext'] at hread
    exact ⟨value, hread, hlist⟩

end History

/-- **A history is opened from any file of text:** apart from the limits of the reader, a regular
file stops its history from being opened exactly if its bytes are no text. Otherwise its entries are
those of the file up to the capacity, and none, with one note, if the file is no history. -/
theorem load_of_file {files : FileTree} {path : Path} {bytes : ByteArray}
    (hfile : files.read? path = .ok (some bytes)) {capacity : Int} (hc : 1 ≤ capacity)
    (hlimits : ¬ BeyondLimits bytes) :
    ((∃ opened, History.load files (some path) capacity = .ok opened) ↔ bytes.IsValidUTF8) ∧
      (¬ bytes.IsValidUTF8 → History.load files (some path) capacity = .error .notText) ∧
      (∀ es, IsHistory bytes es → History.load files (some path) capacity =
        .ok (⟨some path, capacity.toNat, es.take capacity.toNat⟩, [])) ∧
      (bytes.IsValidUTF8 → (∀ es, ¬ IsHistory bytes es) →
        ∃ note, History.load files (some path) capacity =
          .ok (⟨some path, capacity.toNat, []⟩, [note])) := by
  by_cases hbytes : bytes.IsValidUTF8
  · obtain ⟨found, hfound, hentries⟩ := History.exists_ofFile hfile hbytes hlimits
    have hload := History.load_of_ofFile hc hfound
    refine ⟨⟨fun _ => hbytes, fun _ => ⟨_, hload⟩⟩, fun h => absurd hbytes h, fun es hes => ?_,
      fun _ hnone => ?_⟩
    · rw [hload, (hentries es).mpr hes]
      rfl
    · have hne : ∀ es, found ≠ .entries es := fun es heq => hnone es ((hentries es).mp heq)
      obtain ⟨hlist, note, hnote⟩ := History.notes_of_not_entries hne
      rw [hload, hlist, hnote, List.take_nil]
      exact ⟨note, rfl⟩
  · have hload : History.load files (some path) capacity = .error .notText := by
      have hpos : ¬ capacity < 1 := by omega
      simp only [History.load, if_neg hpos, History.ofFile_notText hfile hbytes]
      rfl
    refine ⟨⟨fun h => ?_, fun h => absurd h hbytes⟩, fun _ => hload, ?_,
      fun h => absurd h hbytes⟩
    · obtain ⟨opened, hopened⟩ := h
      rw [hload] at hopened
      cases hopened
    · rintro es ⟨text, value, htext, -⟩
      rw [History.fromUTF8?_eq_none_iff.mpr hbytes] at htext
      cases htext

/-- A tree with one file beside the calculator, of one byte that no text has. -/
def FileTree.notText : FileTree :=
  FileTree.empty.put Reopening.path.names (.file ⟨#[0xff]⟩)

theorem fromUTF8?_notText : String.fromUTF8? ⟨#[0xff]⟩ = none := by decide +kernel

theorem not_beyondLimits_notText : ¬ BeyondLimits ⟨#[0xff]⟩ := by
  rintro ⟨text, htext, -⟩
  rw [fromUTF8?_notText] at htext
  cases htext

theorem load_of_file_notText :
    FileTree.notText.read? Reopening.path = .ok (some ⟨#[0xff]⟩) ∧ (1 : Int) ≤ 50 ∧
      ¬ BeyondLimits ⟨#[0xff]⟩ ∧
      History.load FileTree.notText (some Reopening.path) 50 = .error .notText := by
  have hfile : FileTree.notText.read? Reopening.path = .ok (some ⟨#[0xff]⟩) := rfl
  have hbytes : ¬ (⟨#[0xff]⟩ : ByteArray).IsValidUTF8 :=
    History.fromUTF8?_eq_none_iff.mp fromUTF8?_notText
  obtain ⟨-, hnotText, -⟩ :=
    load_of_file hfile (by decide : (1 : Int) ≤ 50) not_beyondLimits_notText
  exact ⟨hfile, by decide, not_beyondLimits_notText, hnotText hbytes⟩

/-- Not every file within the limits lets its history be opened. -/
theorem not_load_of_file : ¬ ∀ (files : FileTree) (path : Path) (bytes : ByteArray)
    (capacity : Int), files.read? path = .ok (some bytes) → 1 ≤ capacity → ¬ BeyondLimits bytes →
      ∃ opened, History.load files (some path) capacity = .ok opened := by
  intro hall
  obtain ⟨opened, hload⟩ := hall FileTree.notText Reopening.path ⟨#[0xff]⟩ 50 rfl (by decide)
    not_beyondLimits_notText
  have hfile : History.ofFile FileTree.notText Reopening.path = .error .notText :=
    History.ofFile_notText rfl (History.fromUTF8?_eq_none_iff.mp fromUTF8?_notText)
  simp only [History.load, hfile] at hload
  cases hload

end PocketCalculator
