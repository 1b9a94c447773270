import PocketCalculator.Files.Tree

/-! # Files are read as they were written

A file that could be written is read again where its path leads (`read?_of_write`): what is put at
the end of a path lies behind no step of it, for a step starts in a folder. It can be written again,
too (`canWrite_of_write`). A file that could not be written leaves nothing behind but folders
(`grown_of_write`). -/

namespace PocketCalculator.FileTree

variable {t t' : FileTree} {content : ByteArray}

/-! ### One place -/

theorem lookup_filter_ne {place q : List String} (hne : q ≠ place) :
    ∀ nodes : List (List String × FileNode),
      (nodes.filter (·.1 ≠ place)).lookup q = nodes.lookup q
  | [] => rfl
  | (p, node) :: nodes => by
    have ih := lookup_filter_ne hne nodes
    by_cases hp : p = place
    · subst hp
      rw [List.filter_cons_of_neg (by simp), ih, List.lookup_cons, beq_eq_false_iff_ne.mpr hne]
    · rw [List.filter_cons_of_pos (by simpa using hp), List.lookup_cons, List.lookup_cons, ih]

theorem at?_put {place : List String} (hplace : place ≠ []) (node : FileNode) (q : List String) :
    (t.put place node).at? q = if q = place then some node else t.at? q := by
  unfold at? put
  by_cases hq : q = place
  · subst hq
    rw [if_neg hplace, if_pos rfl, List.lookup_cons_self]
  · rw [List.lookup_cons, beq_eq_false_iff_ne.mpr hq, lookup_filter_ne hq, if_neg hq]

theorem ne_nil_of_at? {place : List String} (h : t.at? place ≠ some .folder) : place ≠ [] := by
  rintro rfl
  exact h rfl

/-! ### Written and read -/

/-- What is put where no folder stands is behind no step of a way that led somewhere. -/
theorem locate_put {place : List String} (hplace : t.at? place ≠ some .folder) (node : FileNode)
    {target : List String} : ∀ {names here : List String}, t.locate here names = .ok target →
      (t.put place node).locate here names = .ok target
  | [], _, h => h
  | name :: names, here, h => by
    unfold locate at h ⊢
    rw [at?_put (ne_nil_of_at? hplace)]
    split at h
    · next hfolder =>
      have hne : here ≠ place := by
        rintro rfl
        exact hplace hfolder
      simp only [if_neg hne, hfolder]
      split at h
      · next hup =>
        rw [if_pos hup]
        exact locate_put hplace node h
      · next hup =>
        rw [if_neg hup]
        split at h
        · cases h
        · next hshort =>
          rw [if_neg hshort]
          exact locate_put hplace node h
    · cases h
    · cases h

theorem resolve_put {place names target : List String} (hplace : t.at? place ≠ some .folder)
    (node : FileNode) (h : t.resolve names = .ok target) :
    (t.put place node).resolve names = .ok target := by
  unfold resolve at h ⊢
  split at h
  · cases h
  · next hnull =>
    split at h
    · cases h
    · next hshort =>
      rw [if_neg hnull, if_neg hshort]
      exact locate_put hplace node h

theorem exists_place_of_write {path : Path} (h : t.write path content = (t', .ok ())) :
    ∃ place, t'.resolve path.names = .ok place ∧ t'.at? place = some (.file content) := by
  unfold write at h
  split at h
  · cases h
  · next made _ =>
    split at h
    · cases h
    · next place hresolve =>
      split at h
      · cases h
      · next hplace =>
        have hplace : made.at? place ≠ some .folder := hplace
        have hput : made.put place (.file content) = t' := congrArg Prod.fst h
        subst hput
        refine ⟨place, resolve_put hplace _ hresolve, ?_⟩
        rw [at?_put (ne_nil_of_at? hplace), if_pos rfl]

/-- **A file that was written is read again** by the same path. -/
theorem read?_of_write {path : Path} (h : t.write path content = (t', .ok ())) :
    t'.read? path = .ok (some content) := by
  obtain ⟨place, hresolve, hfile⟩ := exists_place_of_write h
  simp only [read?, hresolve, hfile]

/-! ### Written again -/

/-- **A file can be written,** whatever is to stand in it. -/
def CanWrite (t : FileTree) (path : Path) : Prop :=
  ∀ content, ∃ t', t.write path content = (t', .ok ())

theorem exists_folder_of_locate {name : String} {target : List String} :
    ∀ {names here : List String}, t.locate here (names ++ [name]) = .ok target →
      ∃ folder, t.locate here names = .ok folder ∧ t.at? folder = some .folder
  | [], here, h => by
    rw [List.nil_append, locate] at h
    split at h
    · next hfolder => exact ⟨here, rfl, hfolder⟩
    · cases h
    · cases h
  | step :: names, here, h => by
    rw [List.cons_append, locate] at h
    rw [locate]
    split at h
    · split at h
      · next hup =>
        simp only [if_pos hup]
        exact exists_folder_of_locate h
      · next hup =>
        split at h
        · cases h
        · next hshort =>
          simp only [if_neg hup, if_neg hshort]
          exact exists_folder_of_locate h
    · cases h
    · cases h

theorem pathSize_le_append (names more : List String) :
    pathSize names ≤ pathSize (names ++ more) := by
  induction names with
  | nil => exact Nat.zero_le _
  | cons name names ih => exact Nat.add_le_add_left ih _

theorem exists_folder_of_resolve {names place : List String} {name : String}
    (h : t.resolve (names ++ [name]) = .ok place) :
    ∃ folder, t.resolve names = .ok folder ∧ t.at? folder = some .folder := by
  unfold resolve at h ⊢
  split at h
  · cases h
  · next hnull =>
    split at h
    · cases h
    · next hshort =>
      rw [List.any_append, Bool.or_eq_true] at hnull
      have hsize := pathSize_le_append names [name]
      rw [if_neg fun hany => hnull (.inl hany), if_neg (by omega)]
      exact exists_folder_of_locate h

theorem makeFoldersUp_of_folder {names folder : List String}
    (h : t.resolve names = .ok folder) (hfolder : t.at? folder = some .folder) :
    t.makeFoldersUp names.reverse = (t, .ok ()) := by
  have hmade : t.makeFolder names = .ok t := by
    simp only [makeFolder, h, hfolder]
  unfold makeFoldersUp
  split
  · rfl
  · next name above hreverse =>
    rw [← hreverse, List.reverse_reverse, hmade]

theorem canWrite_of_resolve {path : Path} {place : List String}
    (h : t.resolve path.names = .ok place) (hplace : t.at? place ≠ some .folder) :
    t.CanWrite path := by
  have hne : path.names ≠ [] := by
    intro hnil
    rw [hnil] at h
    cases h
    exact hplace rfl
  have hnames := List.dropLast_concat_getLast hne
  obtain ⟨folder, hfolder, hat⟩ := exists_folder_of_resolve (hnames.symm ▸ h)
  have hmade : t.makeFolders path.parent = (t, .ok ()) := makeFoldersUp_of_folder hfolder hat
  intro content
  unfold write
  simp only [hmade, h]
  exact ⟨_, rfl⟩

/-- **A file that was written can be written again.** -/
theorem canWrite_of_write {path : Path} (h : t.write path content = (t', .ok ())) :
    t'.CanWrite path := by
  obtain ⟨place, hresolve, hfile⟩ := exists_place_of_write h
  refine canWrite_of_resolve hresolve ?_
  rw [hfile]
  exact fun hfolder => nomatch hfolder

/-! ### Not written -/

/-- A tree has become another by new folders alone. -/
structure Grown (t t' : FileTree) : Prop where
  /-- The files are those that were there. -/
  files : ∀ place content,
    t'.at? place = some (.file content) ↔ t.at? place = some (.file content)
  /-- The folders are still there. -/
  folders : ∀ place, t.at? place = some .folder → t'.at? place = some .folder

theorem Grown.refl (t : FileTree) : Grown t t := ⟨fun _ _ => Iff.rfl, fun _ h => h⟩

theorem Grown.trans {t'' : FileTree} (h : Grown t t') (h' : Grown t' t'') : Grown t t'' :=
  ⟨fun place content => (h'.files place content).trans (h.files place content),
    fun place hfolder => h'.folders place (h.folders place hfolder)⟩

theorem grown_put {place : List String} (h : t.at? place = none) :
    Grown t (t.put place .folder) := by
  have hplace : place ≠ [] := ne_nil_of_at? (by rw [h]; simp)
  constructor
  · intro q content
    rw [at?_put hplace]
    by_cases hq : q = place
    · rw [if_pos hq, hq, h]
      simp
    · rw [if_neg hq]
  · intro q hfolder
    rw [at?_put hplace]
    by_cases hq : q = place
    · rw [if_pos hq]
    · rw [if_neg hq, hfolder]

theorem grown_of_makeFolder {names : List String} (h : t.makeFolder names = .ok t') :
    Grown t t' := by
  unfold makeFolder at h
  split at h
  · cases h
  · split at h
    · cases h
      exact .refl t
    · cases h
    · next hnone =>
      cases h
      exact grown_put hnone

theorem grown_makeFoldersUp : ∀ (names : List String) (t : FileTree),
    Grown t (t.makeFoldersUp names).1
  | [], t => .refl t
  | name :: above, t => by
    have ih := grown_makeFoldersUp above t
    unfold makeFoldersUp
    split
    · next hmade => exact grown_of_makeFolder hmade
    · split
      · next habove =>
        rw [habove] at ih
        exact ih
      · next habove =>
        rw [habove] at ih
        split
        · next hmade => exact ih.trans (grown_of_makeFolder hmade)
        · exact ih
    · exact .refl t

/-- **A file that could not be written** leaves new folders at most. -/
theorem grown_of_write {path : Path} {fault : FileFault}
    (h : t.write path content = (t', .error fault)) : Grown t t' := by
  have hmade := grown_makeFoldersUp path.parent.names.reverse t
  unfold write makeFolders at h
  split at h
  · next hfault =>
    rw [hfault] at hmade
    cases h
    exact hmade
  · next hok =>
    rw [hok] at hmade
    split at h
    · cases h
      exact hmade
    · split at h
      · cases h
        exact hmade
      · cases h

end PocketCalculator.FileTree
