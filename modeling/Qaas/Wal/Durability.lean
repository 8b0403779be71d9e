import Qaas.Wal.Crc32
import Qaas.Wal.Log

/-! Which acknowledged appends the next opening of the log returns. -/

namespace Qaas

variable {R : Type} {format : Format R}

/-- A sequence of `append` calls on one open log: the file left, and the records acknowledged. -/
def appends (format : Format R) : Writer → List (R × WriteOutcome) → Writer × List R
  | writer, [] => (writer, [])
  | writer, (record, outcome) :: calls =>
    let (next, result) := append format writer record outcome
    let (last, acknowledged) := appends format next calls
    match result with
    | .ok () => (last, record :: acknowledged)
    | .error _ => (last, acknowledged)

/-- How each call of a sequence ends, judged by what reaches the file. -/
def appendOutcomes (format : Format R) : Writer → List (R × WriteOutcome) → List AppendOutcome
  | _, [] => []
  | writer, (record, outcome) :: calls =>
    appendOutcome format writer record outcome ::
      appendOutcomes format (append format writer record outcome).1 calls

/-- Every record acknowledged since the log was opened is returned, in order, by the next opening. -/
def AcknowledgedSurvive (format : Format R) (file : Bytes) (earlier : List R)
    (calls : List (R × WriteOutcome)) : Prop :=
  ∀ splits, ∃ good records,
    openWal format ⟨(appends format ⟨file, false⟩ calls).1.file, splits⟩ = .ok (good, records) ∧
      (earlier ++ (appends format ⟨file, false⟩ calls).2).Sublist records

/-- No write that fails is acknowledged, and nothing is written after a torn frame. -/
def Unbroken (format : Format R) (writer : Writer) (calls : List (R × WriteOutcome)) : Prop :=
  (∀ outcome ∈ appendOutcomes format writer calls, outcome.acknowledged = true → outcome = .ok) ∧
    (appendOutcomes format writer calls).Pairwise fun earlier later =>
      earlier.tears = true → later = .failedEmpty

/-- Calls that write nothing leave the file as it was and acknowledge nothing. -/
theorem appends_silent {calls : List (R × WriteOutcome)} : ∀ {writer : Writer},
    (∀ outcome ∈ appendOutcomes format writer calls, outcome = .failedEmpty) →
      (appends format writer calls).1.file = writer.file ∧ (appends format writer calls).2 = [] := by
  -- Only the error that the file keeps can change from one call to the next.
  induction calls with
  | nil => exact fun _ => ⟨rfl, rfl⟩
  | cons call calls ih =>
    intro writer quiet
    obtain ⟨record, outcome⟩ := call
    obtain ⟨silent, quiet⟩ := List.forall_mem_cons.mp quiet
    obtain ⟨last, none_acknowledged⟩ := ih quiet
    obtain ⟨part, file, _, short, told⟩ := append_spec format writer record outcome
    rw [silent] at short told
    rw [(short rfl).2 rfl, List.append_nil] at file
    simp only [appends]
    cases result : (append format writer record outcome).2 with
    | ok _ => cases told.mp result
    | error _ => exact ⟨last.trans file, none_acknowledged⟩

/-- From a file of whole frames, appends keep what they acknowledge if no failed write is acknowledged
and none writes after a torn frame. -/
theorem appends_replay {calls : List (R × WriteOutcome)} : ∀ {writer : Writer} {earlier : List R},
    Unbroken format writer calls → Frames format writer.file earlier →
      ∃ good tail landed, (appends format writer calls).1.file = good ++ tail ∧
        Frames format good (earlier ++ landed) ∧ nextFrame format tail = .stop ∧
        (appends format writer calls).2.Sublist landed := by
  -- The induction walks the calls in order, with the whole frames written so far as the file.
  induction calls with
  | nil =>
    intro writer earlier _ frames
    exact ⟨writer.file, [], [], by simp [appends], by simpa using frames, by simp [nextFrame], .slnil⟩
  | cons call calls ih =>
    rintro writer earlier ⟨honest, unbroken⟩ frames
    obtain ⟨record, outcome⟩ := call
    obtain ⟨truthful, honest⟩ := List.forall_mem_cons.mp honest
    obtain ⟨after, unbroken⟩ := List.pairwise_cons.mp unbroken
    obtain ⟨part, file, landed, short, told⟩ := append_spec format writer record outcome
    simp only [appends]
    cases lands : (appendOutcome format writer record outcome).lands with
    | true =>
      -- A whole frame extends the file, and its record heads what has landed since.
      have extended := frames.append (.single (landed lands))
      rw [← file] at extended
      obtain ⟨good, tail, later, written, whole, stops, kept⟩ := ih ⟨honest, unbroken⟩ extended
      refine ⟨good, tail, record :: later, ?_, by simpa using whole, stops, ?_⟩ <;>
        cases (append format writer record outcome).2 with
        | ok _ => first | exact written | exact kept.cons_cons record
        | error _ => first | exact written | exact kept.cons record
    | false =>
      obtain ⟨stops, untouched⟩ := short lands
      -- What has not landed is acknowledged by no call.
      have refused : (append format writer record outcome).2 ≠ .ok () := fun answered => by
        rw [truthful (told.mp answered)] at lands
        cases lands
      cases result : (append format writer record outcome).2 with
      | ok _ => exact absurd result refused
      | error _ =>
        cases tears : (appendOutcome format writer record outcome).tears with
        | true =>
          -- Everything after a torn frame is silent, so its part stays at the very end.
          obtain ⟨last, none_acknowledged⟩ := appends_silent fun later member => after later member tears
          refine ⟨writer.file, part, [], last.trans file, by simpa using frames, stops, ?_⟩
          rw [none_acknowledged]
        | false =>
          rw [untouched tears, List.append_nil] at file
          exact ih ⟨honest, unbroken⟩ (file ▸ frames)

/-- Acknowledged appends survive for as long as no failed write is acknowledged and nothing is written
after a torn frame. -/
theorem acknowledged_survive {reader : Reader} {file : Bytes} {earlier : List R}
    {calls : List (R × WriteOutcome)} (opened : openWal format reader = .ok (file, earlier))
    (unbroken : Unbroken format ⟨file, false⟩ calls) : AcknowledgedSurvive format file earlier calls := by
  -- An opening leaves whole frames, from which the appends go on.
  intro splits
  obtain ⟨good, tail, landed, written, whole, stops, kept⟩ :=
    appends_replay unbroken (holds_of_openWal opened)
  refine ⟨good, earlier ++ landed, ?_, kept.append_left earlier⟩
  exact openWal_frames written whole stops

/-- The JSON booleans, and the checksum the log stores with them. -/
def boolFormat : Format Bool where
  toVec record := some (if record then [0x74, 0x72, 0x75, 0x65] else [0x66, 0x61, 0x6c, 0x73, 0x65])
  fromSlice payload :=
    if payload = [0x74, 0x72, 0x75, 0x65] then some true
    else if payload = [0x66, 0x61, 0x6c, 0x73, 0x65] then some false
    else none
  hash := crc32
  decodes := by
    intro record payload encoded
    cases record <;> cases encoded <;> rfl

/-- A write that fails behind its `Ok`, a torn header with two appends behind it of which the first
gets its error, and a torn header whose error is told at once. -/
def swallowed : List (List (Bool × WriteOutcome)) :=
  [[(false, .unreported 0 true)], [(false, .unreported 8 false), (true, .synced), (true, .synced)],
    [(false, .stopped 8), (true, .synced)]]

/-- A write that fails behind its `Ok` loses its record, and a torn header swallows the acknowledged
record written after it. -/
theorem torn_append_swallows_next :
    openWal boolFormat ⟨[], []⟩ = .ok ([], []) ∧
      ∀ calls ∈ swallowed, ¬ AcknowledgedSurvive boolFormat [] [] calls := by
  -- The header announces five bytes, and the next frame supplies five that do not match it.
  have nothing : ∀ calls ∈ swallowed,
      openWal boolFormat ⟨(appends boolFormat ⟨[], false⟩ calls).1.file, []⟩ = .ok ([], []) ∧
        (appends boolFormat ⟨[], false⟩ calls).2 ≠ [] := by
    decide +kernel
  refine ⟨rfl, fun calls member survive => ?_⟩
  obtain ⟨empty, acknowledged⟩ := nothing calls member
  obtain ⟨good, records, opened, kept⟩ := survive []
  rw [empty] at opened
  cases opened
  exact acknowledged (List.sublist_nil.mp kept)

/-- Two acknowledged records around a failure that wrote nothing are both returned. -/
theorem acknowledged_survive_empty_failure :
    AcknowledgedSurvive boolFormat [] [] [(true, .synced), (false, .stopped 0), (false, .synced)] := by
  have opened : openWal boolFormat ⟨[], []⟩ = .ok ([], []) := rfl
  exact acknowledged_survive opened (by unfold Unbroken; decide)

end Qaas
