import Mathlib.Data.List.DropRight
import Halro.Ledger.Resume

/-!
# The window of remembered events

`State.apply` remembers the digests of the events it accepts, the last 65,536 of them, in a map and
a ring.  Over all records, refused ones included, the two hold the same identifiers, and these are
the ones of the last 65,536 events that were accepted as new, in their order (`Remembers`).

A snapshot keeps the window, oldest first.  The state restored from it goes on as the live one over
records that are steady, or without an archive (`window_remembers`).  Otherwise an early archival
after the restart makes it refuse what the live state accepts (`restored_refuses`).
-/

namespace Halro

open Framework

namespace Ledger

variable {D : Type} {cat : Catalogue D} {s t : State D} {h : List Effect} {r : Record}

/-! ## What is remembered -/

/-- The last 65,536 of some events. -/
def recent (events : List Event) : List Event := events.rtake recentEventDigests

/-- One more event pushes the oldest out once there are enough. -/
lemma recent_concat (events : List Event) (e : Event) : recent (events ++ [e]) =
    (if (recent events).length < recentEventDigests then recent events else (recent events).tail) ++
      [e] := by
  obtain ⟨n, hn⟩ : ∃ n, recentEventDigests = n + 1 := ⟨65535, rfl⟩
  unfold recent
  rw [hn, List.rtake_concat_succ, List.rtake, List.rtake, List.length_drop, List.tail_drop]
  split_ifs
  · congr 2
    omega
  · congr 2
    omega

variable [DecidableEq D]

/-- One record applied, with the events that were accepted as new so far: not those that repeat one
of the last 65,536. -/
def follow (cat : Catalogue D) (p : State D × List Event) (r : Record) : State D × List Event :=
  match p.1.apply cat r with
  | .error (t, _) => (t, p.2)
  | .ok t =>
    (t, if r.event.eventID ∈ (recent p.2).map (·.eventID) then p.2 else p.2 ++ [r.event])

omit [DecidableEq D] in
/-- The ring and the map of a state hold the last of the events, with their digests. -/
structure Remembers (cat : Catalogue D) (s : State D) (events : List Event) : Prop where
  window : WindowSound s
  order : s.window = (recent events).map (·.eventID)
  digest : ∀ e ∈ recent events, e.validate cat = [] ∧
    ∃ d, cat.eventDigest e = some d ∧ s.eventDigests.lookup e.eventID = some d

namespace Remembers

variable {events : List Event} {digest : D}

omit [DecidableEq D]

lemma new (cat : Catalogue D) (archiving : Bool) : Remembers cat (State.new D archiving) [] :=
  ⟨(Ready.new cat).window.same rfl rfl rfl, by simp [State.window, State.new, recent, List.rtake],
    fun e he => by simp [recent, List.rtake] at he⟩

lemma same (hr : Remembers cat s events) (hdigs : t.eventDigests = s.eventDigests)
    (horder : t.eventOrder = s.eventOrder) (hnext : t.eventNext = s.eventNext) :
    Remembers cat t events := by
  refine ⟨hr.window.same hdigs horder hnext, ?_, ?_⟩
  · rw [← hr.order, State.window, State.window, horder, hnext]
  · rw [hdigs]
    exact hr.digest

/-- Remembering a new event forgets the oldest once there are enough. -/
lemma advance (hr : Remembers cat s events) (hnew : s.eventDigests.lookup r.event.eventID = none)
    (hvalid : r.event.validate cat = []) (hdig : cat.eventDigest r.event = some digest) :
    Remembers cat (s.advance r digest) (events ++ [r.event]) := by
  obtain ⟨hwin, hdigs⟩ := State.rememberDigest_window hr.window r.event.eventID digest
  have hlen : s.eventOrder.length = (recent events).length := by
    have := congrArg List.length hr.order
    rwa [State.window, List.length_rotate, List.length_map] at this
  rw [hlen] at hwin hdigs
  have hsound := hr.window.remember digest hnew
  rw [State.advance_eq]
  refine ⟨hsound.same rfl rfl rfl, hwin.trans ?_, fun e he => ?_⟩
  · rw [recent_concat, List.map_append, hr.order]
    split_ifs <;> simp
  · rw [recent_concat, List.mem_append, List.mem_singleton] at he
    rw [hdigs, FinMap.lookup_insert_ite]
    rcases he with he | rfl
    · have hin : e ∈ recent events := by
        split_ifs at he
        · exact he
        · exact List.mem_of_mem_tail he
      obtain ⟨hv, d, hd, hl⟩ := hr.digest e hin
      have hid : e.eventID ≠ r.event.eventID := by
        intro hid
        rw [hid, hnew] at hl
        cases hl
      refine ⟨hv, d, hd, ?_⟩
      rw [if_neg hid]
      split_ifs with hlt
      · exact hl
      · rw [if_neg hlt] at he
        -- the window names each event once, so the oldest is not named by its tail
        have hnodup := hr.window.nodup
        rw [hr.order] at hnodup ⊢
        cases hq : recent events with
        | nil => simp [hq] at he
        | cons first rest =>
          rw [hq] at he hnodup
          rw [List.map_cons, List.headD_cons, FinMap.lookup_erase_ite, if_neg, hl]
          rintro heq
          exact (List.nodup_cons.mp hnodup).1 (List.mem_map.mpr ⟨e, he, heq⟩)
    · rw [if_pos rfl]
      exact ⟨hvalid, digest, hdig, rfl⟩

lemma mem_iff (hr : Remembers cat s events) (id : String) :
    id ∈ (recent events).map (·.eventID) ↔ (s.eventDigests.lookup id).isSome := by
  rw [hr.window.exact, hr.order]

end Remembers

/-- **Step lemma.**  A record, accepted or refused, leaves a state that remembers the last events
accepted as new. -/
lemma Remembers.follow {p : State D × List Event} (hr : Remembers cat p.1 p.2) (r : Record) :
    Remembers cat (follow cat p r).1 (follow cat p r).2 := by
  have hknown := hr.mem_iff r.event.eventID
  cases happly : p.1.apply cat r with
  | error failure =>
    obtain ⟨t, err⟩ := failure
    rw [Ledger.follow, happly]
    rcases State.apply_error_state happly with rfl | hleft
    · exact hr
    · rw [hleft.eq]
      exact hr.same rfl rfl rfl
  | ok t =>
    rw [Ledger.follow, happly]
    obtain ⟨hv, digest, hd, hacc⟩ := State.apply_ok happly
    obtain ⟨u, hdigs, horder, hnext, -, hcase⟩ := State.accepted_window hacc
    have hu := hr.same hdigs horder hnext
    rcases hcase with ⟨hold, rfl⟩ | ⟨hnew, rfl⟩
    · rw [hold] at hknown
      rw [if_pos (hknown.mpr rfl)]
      exact hu
    · rw [hnew] at hknown
      rw [if_neg (fun hin => nomatch hknown.mp hin)]
      exact hu.advance (hdigs ▸ hnew) hv hd

/-- Following the accepted events does not change what is applied. -/
lemma follow_state (records : List Record) (s : State D) (events : List Event) (h : List Effect) :
    (records.foldl (follow cat) (s, events)).1 = (records.foldl (play cat) (s, h)).1 := by
  induction records generalizing s events h with
  | nil => rfl
  | cons r rest ih =>
    rw [List.foldl_cons, List.foldl_cons, play, follow]
    cases s.apply cat r <;> exact ih _ _ _

/-! ## Whole runs -/

/-- **The window over whole runs.**  After any records, refused ones included, the map and the ring
hold the last 65,536 events accepted as new, each once.  One of them that comes again, not before
the watermark, is accepted and moves at most the watermark; its identifier with another digest is
refused and leaves the state as it was.  A state restored from a snapshot decides and archives over
calm records as the live one, and ends in agreement with it. -/
theorem window_remembers (cat : Catalogue D) (archiving : Bool) (records : List Record) :
    let s := (replay cat archiving records).1
    let events := (records.foldl (follow cat) (State.new D archiving, [])).2
    Remembers cat s events ∧
      (∀ r, r.event ∈ recent events → s.watermark.sequence ≤ r.sequence → s.apply cat r =
        .ok (if s.watermark.sequence < r.sequence then { s with watermark := r.watermark } else s)) ∧
      (∀ e ∈ recent events, ∀ r, r.event.eventID = e.eventID →
        cat.eventDigest r.event ≠ cat.eventDigest e → ∃ err, s.apply cat r = .error (s, err)) ∧
      ∀ rest, Along (play cat) (Calm cat) (State.new D archiving, []) (records ++ rest) →
        outcomes cat (s.copySnapshot.restore archiving) rest = outcomes cat s rest ∧
          SameCore (replay cat archiving (records ++ rest)).1
            ((s.copySnapshot.restore archiving).feed cat rest) := by
  intro s events
  have hr : Remembers cat s events := by
    have hall := List.foldlRecOn (motive := fun p => Remembers cat p.1 p.2) records (follow cat)
      (b := (State.new D archiving, [])) (Remembers.new cat archiving) fun p hp r _ => hp.follow r
    rwa [follow_state records _ _ []] at hall
  refine ⟨hr, fun r hin horder => ?_, fun e hin r hid hne => ?_, fun rest hcalm => ?_⟩
  · obtain ⟨hv, d, hd, hl⟩ := hr.digest r.event hin
    simp only [State.apply, hv, hd, hl, not_true, if_false, ne_eq, Nat.not_lt.mpr horder]
    split_ifs <;> rfl
  · obtain ⟨-, d, hd, hl⟩ := hr.digest e hin
    rw [hd] at hne
    rw [← hid] at hl
    by_cases hv : r.event.validate cat = []
    · cases hd' : cat.eventDigest r.event with
      | none => exact ⟨.noDigest, by simp [State.apply, hv, hd']⟩
      | some d' =>
        have hother : d ≠ d' := fun heq => hne (heq ▸ hd')
        exact ⟨.eventReused r.event.eventID, by simp [State.apply, hv, hd', hl, hother]⟩
    · exact ⟨.invalid r.sequence (r.event.validate cat), by simp [State.apply, hv]⟩
  · obtain ⟨hout, hcore, -⟩ := Poised.resume hcalm
    exact ⟨hout, hcore⟩

/-! ## An early archival after the restart -/

/-- The other Run of the closed Work Unit, closed at last. -/
def closeLast : Record where
  sequence := 7
  event := { eventID := "evt_7", kind := .runClosed, workUnitID := "wku_a", runID := "run_a",
             closeReason := "done", projectID := "prj", keyID := "key", periodID := "2026-05-01",
             occurredAt := 26, operation := "run.close", idempotencyKeyHash := labelOf '6',
             requestFingerprint := labelOf 'f' }

/-- The record of a Run that comes again, and a snapshot where the Run that expires first is closed. -/
theorem window_remembers_run :
    let s := (replay Catalogue.bare true (recordsOf (closeWith "run_a"))).1
    let again : Record := { sequence := 6, event := createRun "run_a" '1' 2 20 }
    s.apply Catalogue.bare again = .ok { s with watermark := again.watermark } ∧
      SameCore (replay Catalogue.bare true (recordsOf (closeWith "run_a") ++ [acceptAt 35])).1
        ((s.copySnapshot.restore true).feed Catalogue.bare [acceptAt 35]) := by
  obtain ⟨-, hagain, -, hrest⟩ :=
    window_remembers Catalogue.bare true (recordsOf (closeWith "run_a"))
  refine ⟨?_, (hrest [acceptAt 35] (by decide +kernel)).2⟩
  exact (hagain { sequence := 6, event := createRun "run_a" '1' 2 20 } (by decide +kernel)
    (by decide +kernel)).trans (by rw [if_pos (by decide +kernel)])

/-- The closed Work Unit is archived early from the restored state, and the close of its other Run,
which the live state accepts, is refused. -/
theorem restored_refuses :
    let s := (replay Catalogue.bare true (recordsOf (closeWith "run_b"))).1
    let t := s.copySnapshot.restore true
    State.refusal ((s.feed Catalogue.bare [acceptAt 25]).apply Catalogue.bare closeLast) = none ∧
      State.refusal ((t.feed Catalogue.bare [acceptAt 25]).apply Catalogue.bare closeLast) ≠ none := by
  decide +kernel

end Ledger

end Halro
