import PocketCalculator.History.Entry
import PocketCalculator.Proofs.Computations

/-! # Entries as they are read

An object tells of an entry if its timestamp is the text of a moment and it has a line and a result,
of whatever kind (`Json.TellsOf`). These objects are the ones that are read, and no other value is
(`Entry.ofJson_eq_ok_iff`). A list of entries is read from an array of such objects
(`Entry.listOfJson_array_iff`); another value that counts as a list has no entries
(`Entry.eq_nil_of_listOfJson`). -/

namespace PocketCalculator

/-! ### Objects -/

/-- **An object that tells of an entry:** its timestamp is the text of a moment, and it has a line
and a result. Other fields do not matter. -/
inductive Json.TellsOf : Json → Entry → Prop where
  | object {fields : List (Units × Json)} {units : Units} {timestamp : Timestamp}
      {expression result : Json}
      (htimestamp : field? fields "timestamp" = some (.string units))
      (hmoment : Timestamp.ofPoints units.points = .ok timestamp)
      (hexpression : field? fields "expression" = some expression)
      (hresult : field? fields "result" = some result) :
      TellsOf (.object fields) ⟨timestamp, expression, result⟩

namespace Entry

theorem field_eq_ok_iff {fields : List (Units × Json)} {name : String} {value : Json} :
    field fields name = .ok value ↔ Json.field? fields name = some value := by
  unfold field
  cases Json.field? fields name <;> simp

theorem timestampOf_eq_ok_iff {value : Json} {t : Timestamp} : timestampOf value = .ok t ↔
    ∃ units, value = .string units ∧ Timestamp.ofPoints units.points = .ok t := by
  constructor
  · intro h
    unfold timestampOf at h
    split at h
    · next units =>
      split at h
      · next hmoment =>
        cases h
        exact ⟨units, rfl, hmoment⟩
      · cases h
    · cases h
  · rintro ⟨units, rfl, hmoment⟩
    simp only [timestampOf, hmoment]

/-- **The entries that are read** are those that objects tell of. -/
theorem ofJson_eq_ok_iff {value : Json} {e : Entry} : ofJson value = .ok e ↔ value.TellsOf e := by
  constructor
  · intro h
    cases value with
    | object fields =>
      obtain ⟨stamp, hstamp, h⟩ := exists_of_bind_eq_ok h
      obtain ⟨timestamp, htimestamp, h⟩ := exists_of_bind_eq_ok h
      obtain ⟨expression, hexpression, h⟩ := exists_of_bind_eq_ok h
      obtain ⟨result, hresult, h⟩ := exists_of_bind_eq_ok h
      cases h
      obtain ⟨units, rfl, hmoment⟩ := timestampOf_eq_ok_iff.mp htimestamp
      exact .object (field_eq_ok_iff.mp hstamp) hmoment (field_eq_ok_iff.mp hexpression)
        (field_eq_ok_iff.mp hresult)
    | null | bool | integer | number | string | array => cases h
  · rintro ⟨hstamp, hmoment, hexpression, hresult⟩
    simp only [ofJson, field_eq_ok_iff.mpr hstamp, field_eq_ok_iff.mpr hexpression,
      field_eq_ok_iff.mpr hresult, timestampOf, hmoment, bind, Except.bind]
    rfl

/-! ### Lists -/

/-- **The entries of an array** are told of by its items, one by one. -/
theorem listOfJson_array_iff {items : List Json} {es : List Entry} :
    listOfJson (.array items) = .ok es ↔ List.Forall₂ Json.TellsOf items es := by
  have hitem : (fun item e => ofJson item = .ok e) = Json.TellsOf := by
    funext item e
    exact propext ofJson_eq_ok_iff
  rw [listOfJson, mapM_eq_ok_iff, hitem]

theorem eq_nil_of_listOfJson {value : Json} {es : List Entry} (h : listOfJson value = .ok es)
    (hvalue : ∀ items, value ≠ .array items) : es = [] := by
  unfold listOfJson at h
  split at h
  · next items => exact absurd rfl (hvalue items)
  · split at h <;> cases h
    rfl
  · split at h <;> cases h
    rfl
  · cases h

end Entry

end PocketCalculator
