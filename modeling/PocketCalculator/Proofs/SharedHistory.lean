import PocketCalculator.Proofs.InMemory

/-! # Sessions that share a history

Keys are pressed on several sessions before one desk, in any order and at any times. A stroke
records its line where it evaluates it with success (`Room.Records`), and nothing else touches the
history: after a run it holds the newest of the recorded lines, whichever sessions they come from
(`shared_history`). The sessions know nothing of one another, for a session is led by its own keys
(`Room.sessions_run`). -/

namespace PocketCalculator

/-- A key pressed on one of several sessions. -/
structure Stroke (ι : Type) where
  session : ι
  symbol : String
  isKey : (actionOf? symbol).isSome = true
  clock : Readings

/-- Several sessions before one desk. -/
structure Room (ι : Type) where
  sessions : ι → Session
  desk : Desk

/-- The keys pressed on a session. -/
def keysOn {ι : Type} [DecidableEq ι] (i : ι) (strokes : List (Stroke ι)) : List String :=
  (strokes.filter (·.session = i)).map Stroke.symbol

variable {ι : Type} {settings : Settings}

namespace Room

/-- The text that a stroke finds on its display. -/
def textBefore (room : Room ι) (stroke : Stroke ι) : String :=
  (room.sessions stroke.session).display.text

/-- What a stroke leaves of its session and the desk. -/
def struck (settings : Settings) (room : Room ι) (stroke : Stroke ι) : Afterwards :=
  (room.sessions stroke.session).press settings stroke.clock room.desk stroke.symbol

/-- A stroke that evaluates a line with success. -/
def Records (settings : Settings) (room : Room ι) (stroke : Stroke ι) : Prop :=
  stroke.symbol = "=" ∧ Succeeds settings (room.textBefore stroke)

instance (room : Room ι) (stroke : Stroke ι) : Decidable (room.Records settings stroke) :=
  inferInstanceAs (Decidable (_ ∧ _))

/-- The texts on the display before and after a stroke, as an entry. -/
def entry (settings : Settings) (room : Room ι) (stroke : Stroke ι) : Entry :=
  .ofTexts stroke.clock.recorded (room.textBefore stroke)
    (room.struck settings stroke).session.display.text

section Run
variable [DecidableEq ι]

/-- The room after a stroke. -/
def strike (settings : Settings) (room : Room ι) (stroke : Stroke ι) : Room ι where
  sessions i :=
    if stroke.session = i then (room.struck settings stroke).session else room.sessions i
  desk := (room.struck settings stroke).desk

/-- The room after a run of strokes. -/
def run (settings : Settings) (room : Room ι) (strokes : List (Stroke ι)) : Room ι :=
  strokes.foldl (strike settings) room

/-- **The entries of the strokes that record a line,** the oldest first. -/
def recorded (settings : Settings) (room : Room ι) : List (Stroke ι) → List Entry
  | [] => []
  | stroke :: strokes =>
    let later := (room.strike settings stroke).recorded settings strokes
    if room.Records settings stroke then room.entry settings stroke :: later else later

end Run

/-! ### One stroke -/

variable (hp : 0 ≤ settings.displayDecimals)
include hp

/-- **The step of a stroke.** -/
theorem struck_inMemory {room : Room ι} (hpath : room.desk.history.path = none)
    (stroke : Stroke ι) :
    (room.struck settings stroke).result = .ok () ∧
      (room.struck settings stroke).session =
        (room.sessions stroke.session).after settings stroke.symbol ∧
      (room.struck settings stroke).desk.history.path = none ∧
      (room.struck settings stroke).desk.history =
        if room.Records settings stroke then
          room.desk.history.insert (room.entry settings stroke)
        else room.desk.history := by
  obtain ⟨d', hpress, hpath', hhistory⟩ :=
    Session.press_after hp stroke.clock (room.sessions stroke.session) hpath stroke.isKey
  have hstruck : room.struck settings stroke =
      ⟨.ok (), (room.sessions stroke.session).after settings stroke.symbol, d'⟩ := hpress
  rw [entry, hstruck]
  exact ⟨rfl, rfl, hpath', hhistory⟩

theorem exists_of_records {room : Room ι} (hpath : room.desk.history.path = none)
    {stroke : Stroke ι} (hrec : room.Records settings stroke) :
    ∃ line v, calculate settings line = .ok (.value v) ∧
      (room.entry settings stroke).expression = .ofString line ∧
      (room.entry settings stroke).result = .ofString v.shown := by
  obtain ⟨hkey, hlet, v, hcalc⟩ := hrec
  have hshown : (room.struck settings stroke).session.display.text = v.shown := by
    rw [(struck_inMemory hp hpath stroke).2.1, hkey]
    exact (Takes.calculated hlet hcalc).answer_eq
  refine ⟨room.textBefore stroke, v, hcalc, rfl, ?_⟩
  rw [entry, hshown]
  rfl

/-! ### A run of strokes -/

variable [DecidableEq ι]

theorem path_strike {room : Room ι} (hpath : room.desk.history.path = none)
    (stroke : Stroke ι) : (room.strike settings stroke).desk.history.path = none :=
  (struck_inMemory hp hpath stroke).2.2.1

theorem path_run (strokes : List (Stroke ι)) {room : Room ι}
    (hpath : room.desk.history.path = none) :
    (room.run settings strokes).desk.history.path = none := by
  induction strokes generalizing room with
  | nil => exact hpath
  | cons stroke strokes ih => exact ih (path_strike hp hpath stroke)

/-- **The history after a run** has taken up the recorded lines in turn. -/
theorem history_run (strokes : List (Stroke ι)) {room : Room ι}
    (hpath : room.desk.history.path = none) :
    (room.run settings strokes).desk.history =
      (room.recorded settings strokes).foldl History.insert room.desk.history := by
  induction strokes generalizing room with
  | nil => rfl
  | cons stroke strokes ih =>
    have hrest := ih (path_strike hp hpath stroke)
    have hstep : (room.strike settings stroke).desk.history =
        if room.Records settings stroke then
          room.desk.history.insert (room.entry settings stroke)
        else room.desk.history := (struck_inMemory hp hpath stroke).2.2.2
    rw [run, List.foldl_cons, ← run, hrest, hstep, recorded]
    split <;> rfl

theorem exists_of_mem_recorded (strokes : List (Stroke ι)) {room : Room ι}
    (hpath : room.desk.history.path = none) {e : Entry}
    (he : e ∈ room.recorded settings strokes) :
    ∃ line v, calculate settings line = .ok (.value v) ∧ e.expression = .ofString line ∧
      e.result = .ofString v.shown := by
  induction strokes generalizing room with
  | nil => cases he
  | cons stroke strokes ih =>
    have hrest := ih (path_strike hp hpath stroke)
    rw [recorded] at he
    split at he
    · next hrec =>
      rcases List.mem_cons.mp he with rfl | hlater
      · exact exists_of_records hp hpath hrec
      · exact hrest hlater
    · exact hrest he

/-- **A session after a run** is where its own keys lead. -/
theorem sessions_run (i : ι) (strokes : List (Stroke ι)) {room : Room ι}
    (hpath : room.desk.history.path = none) :
    (room.run settings strokes).sessions i =
      (keysOn i strokes).foldl (Session.after settings) (room.sessions i) := by
  induction strokes generalizing room with
  | nil => rfl
  | cons stroke strokes ih =>
    have hrest := ih (path_strike hp hpath stroke)
    rw [run, List.foldl_cons, ← run, hrest, keysOn, keysOn]
    by_cases hi : stroke.session = i
    · have hstep : (room.strike settings stroke).sessions i =
          (room.sessions i).after settings stroke.symbol := by
        subst hi
        exact (if_pos rfl).trans (struck_inMemory hp hpath stroke).2.1
      rw [hstep, List.filter_cons_of_pos (by simpa using hi), List.map_cons, List.foldl_cons]
    · have hstep : (room.strike settings stroke).sessions i = room.sessions i := if_neg hi
      rw [hstep, List.filter_cons_of_neg (by simpa using hi)]

end Room

/-! ### What the history holds -/

theorem History.entries_foldl_insert : ∀ (es : List Entry) {h : History},
    h.entries.length ≤ h.capacity →
      (es.foldl insert h).entries = (es.reverse ++ h.entries).take h.capacity
  | [], h, hlen => (List.take_of_length_le hlen).symm
  | e :: es, h, _ => by
    have hlen : (h.insert e).entries.length ≤ h.capacity := by
      rw [entries_insert, List.length_take]
      omega
    have ih := entries_foldl_insert es (h := h.insert e) hlen
    rw [List.foldl_cons, ih, entries_insert, capacity_insert, List.reverse_cons,
      List.append_assoc, List.singleton_append, List.take_append, List.take_append, List.take_take,
      Nat.min_eq_left (Nat.sub_le ..)]

/-- **A shared history:** whatever keys are pressed on whatever sessions, the history holds the
newest of the recorded lines, as many as it has room for, each with the result of its line. Every
key goes through, and one that records nothing leaves the history as it is. A session comes to the
same in another room, where it starts the same and has the same keys pressed on it. -/
theorem shared_history [DecidableEq ι] (hp : 0 ≤ settings.displayDecimals) {room : Room ι}
    (hpath : room.desk.history.path = none) (hempty : room.desk.history.entries = [])
    (strokes : List (Stroke ι)) :
    (room.run settings strokes).desk.history.entries =
        (room.recorded settings strokes).reverse.take room.desk.history.capacity ∧
      (∀ e ∈ (room.run settings strokes).desk.history.entries,
        ∃ line v, calculate settings line = .ok (.value v) ∧ e.expression = .ofString line ∧
          e.result = .ofString v.shown) ∧
      (∀ stroke, ((room.run settings strokes).struck settings stroke).result = .ok () ∧
        (¬ (room.run settings strokes).Records settings stroke →
          ((room.run settings strokes).strike settings stroke).desk.history =
            (room.run settings strokes).desk.history)) ∧
      ∀ (other : Room ι) (strokes' : List (Stroke ι)) (i : ι),
        other.desk.history.path = none → other.sessions i = room.sessions i →
        keysOn i strokes' = keysOn i strokes →
          (other.run settings strokes').sessions i = (room.run settings strokes).sessions i := by
  have hentries : (room.run settings strokes).desk.history.entries =
      (room.recorded settings strokes).reverse.take room.desk.history.capacity := by
    rw [Room.history_run hp strokes hpath, History.entries_foldl_insert _ (by simp [hempty]),
      hempty, List.append_nil]
  refine ⟨hentries, ?_, ?_, ?_⟩
  · intro e he
    rw [hentries] at he
    exact Room.exists_of_mem_recorded hp strokes hpath
      (List.mem_reverse.mp (List.mem_of_mem_take he))
  · intro stroke
    obtain ⟨hresult, -, -, hhistory⟩ :=
      Room.struck_inMemory hp (Room.path_run hp strokes hpath) stroke
    refine ⟨hresult, fun hrec => ?_⟩
    rw [if_neg hrec] at hhistory
    exact hhistory
  · intro other strokes' i hpath' hstart hkeys
    rw [Room.sessions_run hp i strokes' hpath', Room.sessions_run hp i strokes hpath, hstart,
      hkeys]

/-- Two fresh sessions that share a history of two entries. -/
def Room.pair : Room Bool := ⟨fun _ => .fresh, ⟨⟨none, 2, []⟩, .empty, .empty 200, .start .initial⟩⟩

/-- The keys `1/0==7=` on one session and in between the keys `H2+3==` on the other. -/
def interleaved : List (Stroke Bool) :=
  [⟨false, "1", rfl, .midnight⟩, ⟨true, "H", rfl, .midnight⟩, ⟨false, "/", rfl, .midnight⟩,
    ⟨true, "2", rfl, .midnight⟩, ⟨false, "0", rfl, .midnight⟩, ⟨true, "+", rfl, .midnight⟩,
    ⟨false, "=", rfl, .midnight⟩, ⟨true, "3", rfl, .midnight⟩, ⟨true, "=", rfl, .midnight⟩,
    ⟨false, "=", rfl, .midnight⟩, ⟨true, "=", rfl, .midnight⟩, ⟨false, "7", rfl, .midnight⟩,
    ⟨false, "=", rfl, .midnight⟩]

theorem shared_history_interleaved :
    0 ≤ Settings.standard.displayDecimals ∧ Room.pair.desk.history.path = none ∧
      Room.pair.desk.history.entries = [] ∧
      ((Room.pair.run .standard interleaved).desk.history.entries.map fun e =>
          (e.expression.wording, e.result.wording)) =
        [("7".toList, "7".toList), ("5".toList, "5".toList)] ∧
      (Room.pair.run .standard interleaved).sessions true =
        (Room.pair.run .standard (interleaved.filter (·.session))).sessions true := by
  have hp : 0 ≤ Settings.standard.displayDecimals := by decide
  have hrecorded : (((Room.pair.recorded .standard interleaved).reverse.take 2).map fun e =>
      (e.expression.wording, e.result.wording)) =
        [("7".toList, "7".toList), ("5".toList, "5".toList)] := by decide +kernel
  have hpath : Room.pair.desk.history.path = none := rfl
  obtain ⟨hentries, -, -, hsessions⟩ := shared_history hp hpath rfl interleaved
  refine ⟨hp, hpath, rfl, ?_, ?_⟩
  · rw [hentries]
    exact hrecorded
  · exact (hsessions Room.pair (interleaved.filter (·.session)) true rfl rfl (by decide)).symm

end PocketCalculator
