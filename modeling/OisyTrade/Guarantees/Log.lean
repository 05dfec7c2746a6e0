import OisyTrade.Invariant.Halts
import OisyTrade.Queries
import OisyTrade.Script

/-!
# Reading the log

`get_events` serves the event log in pages (`main.rs`), while the canister keeps running.  The log
only grows (`World.Run.log`), so a client that asks for one page after the other sees every event
once and in order, whatever happens between its calls.  An index from `2 ^ 32` on is no `usize`.
-/

namespace OisyTrade

/-! ## The log grows -/

lemma Canister.Moved.log {c c' : Canister} (h : c.Moved c') : c.events <+: c'.events := by
  induction h with
  | refl => exact List.prefix_rfl
  | tail _ hmove ih =>
      obtain ⟨new, hnew, -⟩ := hmove.permissions
      exact ih.trans ⟨new, hnew.symm⟩

/-! ## Pages -/

lemma Canister.getEvents_eq_ok {c : Canister} {args : GetEventsArgs} {page : GetEventsResult} :
    c.getEvents args = .ok page ↔ args.start.toNat < 2 ^ 32 ∧
      page = ⟨(c.events.drop args.start.toNat).take (min args.length.toNat maxEventsPerResponse),
        c.events.length⟩ := by
  rw [getEvents, usizeTryFrom]
  split_ifs with hstart
  · constructor
    · rintro ⟨⟩
      exact ⟨hstart, rfl⟩
    · rintro ⟨-, rfl⟩
      rfl
  · constructor
    · rintro ⟨⟩
    · rintro ⟨hlt, -⟩
      exact absurd hlt hstart

namespace World

variable {w w' : World}

lemma Run.log (h : Run w w') (hw : Reachable w) : w.canister.events <+: w'.canister.events := by
  induction h with
  | refl => exact List.prefix_rfl
  | tail hrun hstep ih => exact ih.trans (hstep.guarded (hw.run hrun).guarded).1.log

/-- **A client reads the log**: it asks for the page behind what it has read, and the canister runs
between its calls. -/
inductive ReadsLog : World → List Event → Prop
  | start {w : World} (hreach : Reachable w) : ReadsLog w []
  | page {w w' : World} {read : List Event} {args : GetEventsArgs} {page : GetEventsResult}
      (hread : ReadsLog w read) (hrun : Run w w') (hstart : args.start.toNat = read.length)
      (hpage : w'.canister.getEvents args = .ok page) : ReadsLog w' (read ++ page.events)

/-- A page continues what stands at the front of the log. -/
lemma page_continues {events read : List Event} (h : read <+: events) (n : ℕ) :
    read ++ (events.drop read.length).take n <+: events := by
  obtain ⟨rest, rfl⟩ := h
  have htake : rest.take n <+: rest := List.take_prefix n rest
  rw [List.drop_left]
  exact (List.prefix_append_right_inj read).mpr htake

lemma ReadsLog.read_front {read : List Event} (h : ReadsLog w read) :
    Reachable w ∧ read <+: w.canister.events := by
  induction h with
  | start hreach => exact ⟨hreach, List.nil_prefix⟩
  | @page w w' read args page hread hrun hstart hpage ih =>
      obtain ⟨hreach, hfront⟩ := ih
      obtain ⟨-, rfl⟩ := Canister.getEvents_eq_ok.mp hpage
      refine ⟨hreach.run hrun, ?_⟩
      rw [hstart]
      exact page_continues (hfront.trans (hrun.log hreach)) _

/-- **A client that pages through the log sees every event once and in order.**  However the
canister ran between its calls, what it has read is the front of the log.  Its next call is answered
exactly if the index is a `usize`; the page continues the log, and it is as long as was asked for, up
to the maximum, or it ends the log. -/
theorem ReadsLog.pages_log {read : List Event} (h : ReadsLog w read) (args : GetEventsArgs)
    (hstart : args.start.toNat = read.length) :
    read <+: w.canister.events ∧
    (w.canister.getEvents args = .error (.bug .startIndexExceedsUsize) ↔ 2 ^ 32 ≤ read.length) ∧
    (read.length < 2 ^ 32 → ∃ page, w.canister.getEvents args = .ok page ∧
      read ++ page.events <+: w.canister.events ∧ page.totalEventCount = w.canister.events.length ∧
      (page.events.length = min args.length.toNat maxEventsPerResponse ∨
        read ++ page.events = w.canister.events)) := by
  obtain ⟨-, hfront⟩ := h.read_front
  refine ⟨hfront, ?_, fun hlt => ?_⟩
  · rw [Canister.getEvents, usizeTryFrom, hstart]
    split_ifs with hlt
    · constructor
      · rintro ⟨⟩
      · exact fun hle => absurd hlt (not_lt.mpr hle)
    · exact iff_of_true rfl (not_lt.mp hlt)
  · rw [← hstart] at hlt
    refine ⟨_, Canister.getEvents_eq_ok.mpr ⟨hlt, rfl⟩, ?_, rfl, ?_⟩
    · rw [hstart]
      exact page_continues hfront _
    · obtain ⟨rest, hrest⟩ := hfront
      rw [hstart, ← hrest, List.drop_left, List.length_take]
      rcases le_total (min args.length.toNat maxEventsPerResponse) rest.length with hle | hle
      · exact Or.inl (min_eq_left hle)
      · exact Or.inr (by rw [List.take_of_length_le hle])

/-- Two events of the sample run, and the page behind them. -/
theorem pages_log_sampleWorld : ∃ read page, read.length = 2 ∧
    sampleWorld.canister.getEvents ⟨2, 3⟩ = .ok page ∧
    read ++ page.events <+: sampleWorld.canister.events := by
  have hread : ReadsLog sampleWorld ([] ++ sampleWorld.canister.events.take 2) := by
    have hpage := Canister.getEvents_eq_ok (c := sampleWorld.canister) |>.mpr
      ⟨(by decide : (⟨0, 2⟩ : GetEventsArgs).start.toNat < 2 ^ 32), rfl⟩
    exact .page (.start reachable_sampleWorld) Relation.ReflTransGen.refl rfl hpage
  have hlength : ([] ++ sampleWorld.canister.events.take 2).length = 2 := by decide +kernel
  obtain ⟨-, -, hpage⟩ := hread.pages_log ⟨2, 3⟩ hlength.symm
  obtain ⟨page, hpage, hfront, -⟩ := hpage (by rw [hlength]; decide)
  exact ⟨_, page, hlength, hpage, hfront⟩

end World

end OisyTrade
