/-
# Whom a join is credited to

The manager remembers which profile it is trying, and what became of earlier
attempts, by index. The ticks of the manager keep those indices true, and so do
the commands that leave the list alone. One that edits it does if the station is
re-associated and the radio takes the join; otherwise only if it brings no other
profile to the places they point to. A `join` staged on a full list does.
-/

import Molewire.PlaceEdits

namespace Molewire

open ByteBuffer Transition

namespace Control

/-! ### What the indices should mean -/

/-- Every join so far was credited to the profile whose credentials the radio had last taken. -/
def CreditsHanded (c : Control) : Prop := ∀ cr ∈ c.hist.credits, cr.handed = some cr.profile

/-- Every status, and the date of every bad password, was recorded for the profile now saved in its
place. -/
def SlotsMatch (c : Control) : Prop :=
  (∀ i, (c.conn.prof i).status ≠ .untried →
    ∃ p, c.hist.statusFor i = some p ∧ c.savedAt i = some p) ∧
  (∀ i, (c.conn.prof i).status = .badpass →
    ∃ p, c.hist.badpassFor i = some p ∧ c.savedAt i = some p)

/-- What is saved at `trying`, if anything, is what the radio last took, if anything. -/
def TryingMatch (c : Control) : Prop :=
  ∀ p q, c.hist.handed = some p → c.savedAt c.conn.trying = some q → q = p

/-- What holds between the manager's steps. -/
structure Recorded (c : Control) : Prop where
  trying : TryingMatch c
  slots : SlotsMatch c
  credits : CreditsHanded c

/-- What holds between events: besides, an attempt in flight is one for a saved profile, and so
are the candidates behind it. -/
structure Attributed (c : Control) : Prop extends Recorded c where
  candidates : c.conn.state = .stTry → ∀ i ∈ c.conn.order.drop c.conn.orderIx, i < c.profileCount
  attempt : c.conn.state = .stTry → c.conn.trying < c.profileCount ∧ c.hist.handed.isSome

/-- A change that keeps the list, the attempt and the history, and at most forgets statuses. -/
theorem Recorded.of_forget {c d : Control} (h : Recorded c) (hp : d.cfg.profiles = c.cfg.profiles)
    (ht : d.conn.trying = c.conn.trying) (hh : d.hist = c.hist)
    (hs : ∀ i, (d.conn.prof i).status = (c.conn.prof i).status ∨
      (d.conn.prof i).status = .untried) : Recorded d := by
  -- everything the bookkeeping refers to is read through the list of profiles
  have hsaved : d.savedAt = c.savedAt := by
    funext i
    rw [savedAt, savedAt, hp]
  refine ⟨?_, ⟨fun i hi => ?_, fun i hi => ?_⟩, ?_⟩
  · rw [TryingMatch, hsaved, ht, hh]
    exact h.trying
  · rw [hsaved, hh]
    exact h.slots.1 i ((hs i).resolve_right hi ▸ hi)
  · have hkept := (hs i).resolve_right (by rw [hi]; decide)
    rw [hsaved, hh]
    exact h.slots.2 i (hkept ▸ hi)
  · rw [CreditsHanded, hh]
    exact h.credits

theorem Recorded.congr {c d : Control} (h : Recorded c) (hp : d.cfg.profiles = c.cfg.profiles)
    (ht : d.conn.trying = c.conn.trying) (hh : d.hist = c.hist)
    (hs : d.conn.prof = c.conn.prof) : Recorded d :=
  h.of_forget hp ht hh fun i => .inl (by rw [hs])

theorem Attributed.of_recorded {c : Control} (h : Recorded c) (hs : c.conn.state ≠ .stTry) :
    Attributed c :=
  ⟨h, fun hst => absurd hst hs, fun hst => absurd hst hs⟩

/-- Nothing of the manager's bookkeeping changed. -/
theorem Attributed.congr {c d : Control} (h : Attributed c)
    (hp : d.cfg.profiles = c.cfg.profiles) (hc : d.conn = c.conn) (hh : d.hist = c.hist) :
    Attributed d := by
  have hcount : d.profileCount = c.profileCount := by rw [profileCount, profileCount, hp]
  refine ⟨h.toRecorded.congr hp (by rw [hc]) hh (by rw [hc]), ?_, ?_⟩
  · rw [hc, hcount]
    exact h.candidates
  · rw [hc, hh, hcount]
    exact h.attempt

theorem noteRssi_status (cfg : Config) (prof : Nat → ProfState) (e : ScanEntry) (i : Nat) :
    (noteRssi cfg prof e i).status = (prof i).status := by
  unfold noteRssi
  cases configFindProfile cfg e.ssid with
  | none => rfl
  | some p =>
    by_cases hp : i = p
    · subst hp
      simp
    · simp [hp]

theorem scanRssi_status (c : Control) (prof : Nat → ProfState) (i : Nat) :
    (c.scanRssi prof i).status = (prof i).status := by
  have hfold : ∀ (es : List ScanEntry) (f : Nat → ProfState),
      (es.foldl (noteRssi c.cfg) f i).status = (f i).status := by
    intro es
    induction es with
    | nil => exact fun f => rfl
    | cons e rest ih =>
      intro f
      rw [List.foldl_cons, ih, noteRssi_status]
  exact hfold _ _

theorem Recorded.snapshotRssi {c : Control} (h : Recorded c) : Recorded c.snapshotRssi :=
  h.of_forget rfl rfl rfl fun i => .inl (scanRssi_status c _ i)

theorem Recorded.clearStatus {c : Control} (h : Recorded c) (p : Nat → Bool) :
    Recorded (c.clearStatus p) := by
  refine h.of_forget rfl rfl rfl fun i => ?_
  simp only [Control.clearStatus]
  split_ifs
  · exact .inr rfl
  · exact .inl rfl

/-- What is recorded in the slot of the attempt in flight is recorded for what is saved there. -/
theorem Recorded.of_trying {c d : Control} (h : Recorded c)
    (ht : c.conn.trying < c.profileCount ∧ c.hist.handed.isSome)
    (hsaved : d.savedAt = c.savedAt) (htrying : d.conn.trying = c.conn.trying)
    (hhanded : d.hist.handed = c.hist.handed) (hcredits : d.hist.credits = c.hist.credits)
    (hothers : ∀ i, i ≠ c.conn.trying → d.conn.prof i = c.conn.prof i ∧
      d.hist.statusFor i = c.hist.statusFor i ∧ d.hist.badpassFor i = c.hist.badpassFor i)
    (hstatus : d.hist.statusFor c.conn.trying = c.hist.handed)
    (hbadpass : (d.conn.prof c.conn.trying).status = .badpass →
      d.hist.badpassFor c.conn.trying = c.hist.handed) : Recorded d := by
  obtain ⟨p, hp⟩ := Option.isSome_iff_exists.mp ht.2
  have htaken : c.savedAt c.conn.trying = some p := by
    have hlt := savedAt_of_lt ht.1
    rwa [h.trying p _ hp hlt] at hlt
  refine ⟨?_, ⟨fun i hi => ?_, fun i hi => ?_⟩, ?_⟩
  · rw [TryingMatch, hsaved, htrying, hhanded]
    exact h.trying
  · rw [hsaved]
    by_cases hix : i = c.conn.trying
    · subst hix
      exact ⟨p, hstatus.trans hp, htaken⟩
    · obtain ⟨hprof, hfor, -⟩ := hothers i hix
      rw [hprof] at hi
      rw [hfor]
      exact h.slots.1 i hi
  · rw [hsaved]
    by_cases hix : i = c.conn.trying
    · subst hix
      exact ⟨p, (hbadpass hi).trans hp, htaken⟩
    · obtain ⟨hprof, -, hfor⟩ := hothers i hix
      rw [hprof] at hi
      rw [hfor]
      exact h.slots.2 i hi
  · rw [CreditsHanded, hcredits]
    exact h.credits

/-- A status other than a bad password, recorded for the attempt in flight. -/
theorem Recorded.setStatus {c : Control} (h : Recorded c)
    (ht : c.conn.trying < c.profileCount ∧ c.hist.handed.isSome) (status : ProfStatus)
    (hs : status ≠ .badpass) : Recorded (c.setStatus c.conn.trying status) := by
  refine h.of_trying ht rfl rfl rfl rfl (fun i hix => ?_) (Function.update_self ..) fun hbad => ?_
  · exact ⟨Function.update_of_ne hix .., Function.update_of_ne hix .., rfl⟩
  · exact absurd (by simpa [Control.setStatus] using hbad) hs

theorem Recorded.markRejected {c : Control} (h : Recorded c)
    (ht : c.conn.trying < c.profileCount ∧ c.hist.handed.isSome) : Recorded c.markRejected :=
  h.of_trying ht rfl rfl rfl rfl
    (fun _ hix => ⟨Function.update_of_ne hix .., Function.update_of_ne hix ..,
      Function.update_of_ne hix ..⟩)
    (Function.update_self ..) fun _ => Function.update_self ..

/-! ### Trying candidates -/

/-- The radio takes the first candidate: the attempt is for what is saved in its place. -/
theorem tryLoop_accepted_attributed {c : Control} {i : Nat} {rest : List Nat}
    (hslots : SlotsMatch c) (hcredits : CreditsHanded c)
    (hdrop : c.conn.order.drop c.conn.orderIx = i :: rest)
    (hlt : ∀ j ∈ i :: rest, j < c.profileCount) (ha : c.env.connects.head? = some true) :
    Attributed (c.tryLoop (i :: rest)) := by
  rw [tryLoop_accepted ha]
  have hi : i < c.profileCount := hlt i List.mem_cons_self
  refine ⟨⟨fun p q hp hq => ?_, hslots, hcredits⟩, fun _ => ?_, fun _ => ⟨hi, rfl⟩⟩
  · have hsaved : c.savedAt i = some q := hq
    rw [savedAt_of_lt hi] at hsaved
    exact (Option.some.inj hsaved).symm.trans (Option.some.inj hp)
  · intro j hj
    exact hlt j (hdrop ▸ hj)

theorem tryLoop_attributed {l : List Nat} {c : Control} (h : Recorded c)
    (hdrop : c.conn.order.drop c.conn.orderIx = l) (hlt : ∀ i ∈ l, i < c.profileCount) :
    Attributed (c.tryLoop l) := by
  induction l generalizing c with
  | nil =>
    refine .of_recorded (h.congr rfl rfl rfl rfl) ?_
    simp [tryLoop, enterWait]
  | cons i rest ih =>
    by_cases ha : c.env.connects.head? = some true
    · exact tryLoop_accepted_attributed h.slots h.credits hdrop hlt ha
    · -- a refused candidate leaves the bookkeeping alone and moves on to the next
      rw [tryLoop_refused ha]
      refine ih (h.congr rfl rfl rfl rfl) ?_ fun j hj => hlt j (List.mem_cons_of_mem _ hj)
      have htail : c.conn.order.drop (c.conn.orderIx + 1) = rest := by
        rw [← List.drop_drop, hdrop, List.drop_one, List.tail_cons]
      exact htail

theorem tryFrom_attributed {c : Control} (h : Recorded c)
    (hlt : ∀ i ∈ c.conn.order.drop c.conn.orderIx, i < c.profileCount) :
    Attributed c.tryFrom :=
  tryLoop_attributed h rfl hlt

theorem pinActive_attributed {c : Control} (h : Recorded c) (ha : c.cfg.active < c.profileCount) :
    Attributed c.pinActive := by
  refine tryFrom_attributed (h.congr rfl rfl rfl rfl) fun i hi => ?_
  rw [List.drop_zero, List.mem_singleton] at hi
  exact hi ▸ ha

theorem buildAndTry_attributed {c : Control} (h : Recorded c) : Attributed c.buildAndTry :=
  tryFrom_attributed (h.congr rfl rfl rfl rfl) fun _ hi => wifiPickOrder_lt hi

theorem Recorded.scanOnly {c d : Control} (h : Recorded c) (hd : ScanOnly c d) : Recorded d := by
  obtain ⟨_, _, _, rfl, -⟩ := hd
  exact h.congr rfl rfl rfl rfl

theorem Attributed.scanOnly {c d : Control} (h : Attributed c) (hd : ScanOnly c d) :
    Attributed d := by
  obtain ⟨_, _, _, rfl, -⟩ := hd
  exact h.congr rfl rfl rfl

theorem startCycle_attributed {c : Control} (h : Recorded c) : Attributed c.startCycle := by
  have hscan : Recorded { c with conn.state := .stScan } := h.congr rfl rfl rfl rfl
  unfold startCycle
  dsimp only
  split_ifs
  · exact .of_recorded (h.congr rfl rfl rfl rfl) (by simp)
  · exact buildAndTry_attributed hscan.snapshotRssi
  · have hstart := wifiScanStart_scanOnly { c with conn.state := .stScan }
    split
    · next d heq =>
      rw [heq] at hstart
      obtain ⟨_, _, _, rfl, -⟩ := hstart
      exact .of_recorded (hscan.congr rfl rfl rfl rfl) (by simp)
    · next d heq =>
      rw [heq] at hstart
      obtain ⟨_, _, _, rfl, -⟩ := hstart
      exact .of_recorded (hscan.congr rfl rfl rfl rfl) (by simp [enterWait])

/-! ### A join comes up -/

theorem configTouchProfile_entries {cfg : Config} {t : Nat} {p : WifiProfile}
    (h : cfg.profiles.entries[t]? = some p) :
    ((configTouchProfile cfg t).getD cfg).profiles.entries =
      p :: cfg.profiles.entries.eraseIdx t := by
  obtain ⟨hlt, -⟩ := List.getElem?_eq_some_iff.mp h
  rw [configTouchProfile_moveToFront hlt, MarkedList.moveToFront, h]
  rfl

/-- The list and the arrays beside it are permuted alike. -/
theorem moveJoined_savedAt {c : Control} {t : Nat} (hlt : t < c.profileCount) :
    (c.moveJoined t).savedAt = moveFront c.savedAt t := by
  have hsaved := savedAt_of_lt hlt
  have hentries := configTouchProfile_entries hsaved
  funext i
  have hmove := congrFun (getElem?_move_front hsaved) i
  rw [savedAt, moveJoined, hentries]
  exact hmove

theorem SlotsMatch.moveJoined {c : Control} (h : SlotsMatch c) {t : Nat}
    (hlt : t < c.profileCount) : SlotsMatch (c.moveJoined t) := by
  rw [SlotsMatch, moveJoined_savedAt hlt]
  refine ⟨fun i => ?_, fun i => ?_⟩
  · simp only [Control.moveJoined, moveFront]
    split_ifs <;> exact h.1 _
  · simp only [Control.moveJoined, moveFront]
    split_ifs <;> exact h.2 _

theorem Recorded.moveJoined {c : Control} (h : Recorded c)
    (hlt : c.conn.trying < c.profileCount) : Recorded (c.moveJoined c.conn.trying) := by
  refine ⟨fun p q hp hq => h.trying p q hp ?_, h.slots.moveJoined hlt, h.credits⟩
  -- what was saved at `trying` is now in front
  have hfront : moveFront c.savedAt c.conn.trying 0 = some q := by
    rw [← moveJoined_savedAt hlt]
    exact hq
  exact hfront

theorem moveJoined_profileCount {c : Control} {t : Nat} (hlt : t < c.profileCount) :
    (c.moveJoined t).profileCount = c.profileCount := by
  have hentries := configTouchProfile_entries (savedAt_of_lt hlt)
  have hlen := List.length_eraseIdx_of_lt hlt
  rw [profileCount, moveJoined, hentries, List.length_cons, hlen]
  exact Nat.sub_add_cancel (Nat.zero_lt_of_lt hlt)

theorem Recorded.markConnected {c : Control} (h : Recorded c)
    (ht : c.conn.trying < c.profileCount ∧ c.hist.handed.isSome) : Recorded c.markConnected := by
  obtain ⟨p, hp⟩ := Option.isSome_iff_exists.mp ht.2
  have hset := h.setStatus ht .connected (by decide)
  refine ⟨hset.trying, hset.slots, fun cr hcr => ?_⟩
  -- an earlier credit, or the one just given
  rcases List.mem_append.mp hcr with hcr | hcr
  · exact h.credits cr hcr
  · rw [List.mem_singleton.mp hcr, h.trying p _ hp (savedAt_of_lt ht.1)]
    exact hp

theorem Attributed.autoSave {c : Control} (h : Attributed c) : Attributed c.autoSave := by
  unfold Control.autoSave configSave
  dsimp only
  split_ifs
  · exact ⟨h.toRecorded.congr rfl rfl rfl rfl, h.candidates, h.attempt⟩
  · exact ⟨h.toRecorded.congr rfl rfl rfl rfl, h.candidates, h.attempt⟩
  · exact h

theorem joined_attributed {c : Control} (h : Recorded c) (hh : c.hist.handed.isSome) :
    Attributed c.joined := by
  -- once the profile is in its place, crediting it and saving keep the rest
  have hcredit : ∀ d : Control, Recorded d → d.conn.trying < d.profileCount →
      d.hist.handed.isSome → Attributed d.markConnected.autoSave := fun d hd hlt hh =>
    (Attributed.of_recorded (hd.markConnected ⟨hlt, hh⟩) (by simp [markConnected])).autoSave
  unfold joined
  dsimp only
  by_cases hlt : c.profileCount ≤ c.conn.trying
  · rw [if_pos hlt]
    exact .of_recorded (h.congr rfl rfl rfl rfl) (by simp)
  · rw [if_neg hlt]
    have hlt : c.conn.trying < c.profileCount := Nat.lt_of_not_le hlt
    have hclear : Recorded { c.clearConnected with cfg.active := c.conn.trying } :=
      (h.clearStatus _).congr rfl rfl rfl rfl
    by_cases ht : 0 < c.conn.trying
    · rw [if_pos ht]
      refine hcredit _ (hclear.moveJoined hlt) ?_ hh
      rw [moveJoined_profileCount (c := { c.clearConnected with cfg.active := c.conn.trying }) hlt]
      exact Nat.zero_lt_of_lt hlt
    · rw [if_neg ht]
      exact hcredit _ hclear hlt hh

theorem markConnected_autoSave {d : Control} {p : WifiProfile} (hz : d.conn.trying = 0)
    (hp : d.savedAt 0 = some p) :
    d.markConnected.autoSave.cfg = d.cfg ∧
      (d.markConnected.autoSave.conn.prof 0).status = .connected ∧
      d.markConnected.autoSave.hist.credits = d.hist.credits ++ [⟨p, d.hist.handed⟩] := by
  have hprofile : d.profile 0 = p := by
    rw [profile, List.getD_eq_getElem?_getD]
    exact congrArg (·.getD ⟨[], []⟩) hp
  unfold autoSave configSave
  dsimp only
  split_ifs <;> simp [markConnected, setStatus, hz, hprofile]

/-- A join that came up is credited to one profile, the one at `trying`: it is made active, moved
to the front and marked connected. -/
theorem joined_credit {c : Control} (hlt : c.conn.trying < c.profileCount) :
    c.joined.cfg.active = 0 ∧ c.joined.savedAt 0 = some (c.profile c.conn.trying) ∧
      (c.joined.conn.prof 0).status = .connected ∧
      c.joined.hist.credits = c.hist.credits ++ [⟨c.profile c.conn.trying, c.hist.handed⟩] := by
  have hsaved := savedAt_of_lt hlt
  unfold joined
  dsimp only
  rw [if_neg (Nat.not_le_of_lt hlt)]
  by_cases ht : 0 < c.conn.trying
  · rw [if_pos ht]
    have hzero : ({ c.clearConnected with cfg.active := c.conn.trying }.moveJoined
        c.conn.trying).savedAt 0 = some (c.profile c.conn.trying) := by
      rw [moveJoined_savedAt (c := { c.clearConnected with cfg.active := c.conn.trying }) hlt]
      exact hsaved
    have hi : c.conn.trying <
        ({ c.cfg with active := c.conn.trying } : Config).profiles.entries.length := hlt
    have hactive := configTouchProfile_frontShift hi
    rw [MarkedList.frontShift, if_pos rfl] at hactive
    obtain ⟨hcfg, hstatus, hcredits⟩ := markConnected_autoSave rfl hzero
    rw [savedAt, hcfg]
    exact ⟨hactive, hzero, hstatus, hcredits⟩
  · have hz : c.conn.trying = 0 := Nat.eq_zero_of_not_pos ht
    have hzero : c.savedAt 0 = some (c.profile c.conn.trying) := by rw [← hsaved, hz]
    rw [if_neg ht]
    obtain ⟨hcfg, hstatus, hcredits⟩ := markConnected_autoSave
      (d := { c.clearConnected with cfg.active := c.conn.trying }) hz hzero
    rw [savedAt, hcfg]
    exact ⟨hz, hzero, hstatus, hcredits⟩

/-! ### The task -/

theorem scanDone_attributed {c : Control} (h : Attributed c) : Attributed c.scanDone := by
  unfold scanDone
  dsimp only
  split_ifs
  · exact buildAndTry_attributed (h.toRecorded.snapshotRssi.congr rfl rfl rfl rfl)
  · exact ⟨h.toRecorded.snapshotRssi.congr rfl rfl rfl rfl, h.candidates, h.attempt⟩

theorem nextPass_attributed {c : Control} (h : Attributed c) : Attributed c.nextPass := by
  have hleft : ∀ (d : Control) (left : Nat), Attributed d →
      Attributed { d with conn.scanPassesLeft := left } := fun d left hd =>
    ⟨hd.toRecorded.congr rfl rfl rfl rfl, hd.candidates, hd.attempt⟩
  have hagain := h.scanOnly (wifiScanAgain_scanOnly c)
  unfold nextPass
  dsimp only
  split_ifs
  · exact scanDone_attributed (hleft _ _ h)
  · split
    · next heq =>
      rw [heq] at hagain
      exact hleft _ _ hagain
    · next heq =>
      rw [heq] at hagain
      exact scanDone_attributed (hleft _ _ hagain)

theorem driveScan_attributed {c : Control} (h : Attributed c) : Attributed c.driveScan := by
  unfold driveScan
  dsimp only
  split_ifs with hleft hpoll hreq
  · exact h.congr rfl rfl rfl
  · exact nextPass_attributed (h.congr rfl rfl rfl)
  · have hasked : Attributed { c with conn.scanRequested := false } :=
      ⟨h.toRecorded.congr rfl rfl rfl rfl, h.candidates, h.attempt⟩
    have hstart := wifiScanStart_scanOnly { c with conn.scanRequested := false }
    split
    · next heq =>
      rw [heq] at hstart
      obtain ⟨_, _, _, rfl, -⟩ := hstart
      refine .of_recorded (hasked.toRecorded.congr rfl rfl rfl rfl) ?_
      dsimp only
      split_ifs
      · simp
      · exact hreq.2
    · next heq =>
      rw [heq] at hstart
      exact hasked.scanOnly hstart
  · exact h

theorem nextCandidate_attributed {c : Control} (h : Recorded c)
    (hc : ∀ i ∈ c.conn.order.drop c.conn.orderIx, i < c.profileCount) :
    Attributed c.nextCandidate := by
  refine tryFrom_attributed (h.congr rfl rfl rfl rfl) fun i hi => hc i ?_
  have hi : i ∈ c.conn.order.drop (c.conn.orderIx + 1) := hi
  rw [← List.drop_drop] at hi
  exact List.mem_of_mem_drop hi

theorem attempting_attributed {c : Control} (h : Attributed c) (hs : c.conn.state = .stTry) :
    Attributed c.attempting := by
  have hnojoin : Attributed (c.setStatus c.conn.trying .nojoin).nextCandidate :=
    nextCandidate_attributed (h.toRecorded.setStatus (h.attempt hs) _ (by decide)) (h.candidates hs)
  unfold attempting
  split
  · exact nextCandidate_attributed (h.toRecorded.markRejected (h.attempt hs)) (h.candidates hs)
  · exact hnojoin
  · exact hnojoin
  · split_ifs
    · exact hnojoin
    · exact h

theorem linkLost_attributed {c : Control} (h : Recorded c) : Attributed c.linkLost := by
  unfold linkLost
  dsimp only
  split_ifs with hfast
  · exact pinActive_attributed ((h.clearStatus _).congr rfl rfl rfl rfl) hfast.2
  · exact startCycle_attributed (h.clearStatus _)

theorem runState_attributed {c : Control} (h : Attributed c) {link : Bool}
    (hlink : link → c.hist.handed.isSome) : Attributed (c.runState link) := by
  unfold runState
  split
  · split_ifs
    · exact h
    · exact linkLost_attributed h.toRecorded
  · next hs =>
    split_ifs with hl
    · exact joined_attributed h.toRecorded (hlink hl)
    · exact attempting_attributed h hs
  · split_ifs with hl
    · exact joined_attributed h.toRecorded (hlink hl)
    · exact h
  · split_ifs with hl
    · exact joined_attributed h.toRecorded (hlink hl)
    · exact startCycle_attributed h.toRecorded
    · exact h
  · split_ifs
    · exact startCycle_attributed h.toRecorded
    · exact h

/-- What was handed to the radio stays handed until something else is. -/
theorem tryLoop_handed (c : Control) (l : List Nat) (h : c.hist.handed.isSome) :
    (c.tryLoop l).hist.handed.isSome := by
  induction l generalizing c with
  | nil => exact h
  | cons i rest ih =>
    by_cases ha : c.env.connects.head? = some true
    · rw [tryLoop_accepted ha]
      rfl
    · rw [tryLoop_refused ha]
      exact ih _ h

theorem scanDone_handed {c : Control} (h : c.hist.handed.isSome) :
    c.scanDone.hist.handed.isSome := by
  unfold scanDone
  dsimp only
  split_ifs
  · exact tryLoop_handed _ _ h
  · exact h

theorem ScanOnly.hist_eq {c d : Control} (h : ScanOnly c d) : d.hist = c.hist := by
  obtain ⟨_, _, _, rfl, -⟩ := h
  rfl

theorem driveScan_handed {c : Control} (h : c.hist.handed.isSome) :
    c.driveScan.hist.handed.isSome := by
  have hpass : ∀ d : Control, d.hist.handed.isSome → d.nextPass.hist.handed.isSome := by
    intro d hd
    have hagain := (wifiScanAgain_scanOnly d).hist_eq
    unfold nextPass
    dsimp only
    split_ifs
    · exact scanDone_handed hd
    · split
      · next heq =>
        rw [heq] at hagain
        exact (congrArg (fun x => x.handed.isSome) hagain).trans hd
      · next heq =>
        rw [heq] at hagain
        exact scanDone_handed ((congrArg (fun x => x.handed.isSome) hagain).trans hd)
  have hstart := (wifiScanStart_scanOnly { c with conn.scanRequested := false }).hist_eq
  unfold driveScan
  dsimp only
  split_ifs
  · exact h
  · exact hpass _ h
  · split
    · next heq =>
      rw [heq] at hstart
      exact (congrArg (fun x => x.handed.isSome) hstart).trans h
    · next heq =>
      rw [heq] at hstart
      exact (congrArg (fun x => x.handed.isSome) hstart).trans h
  · exact h

/-- **The manager keeps its indices true**, whatever the radio answers. -/
theorem wifiConnTask_attributed {c : Control} (h : Attributed c) : Attributed c.wifiConnTask := by
  have hdecay : Attributed { c with conn.lastTick := c.env.now }.decayBadpass :=
    ⟨(h.toRecorded.clearStatus _).congr rfl rfl rfl rfl, h.candidates, h.attempt⟩
  unfold wifiConnTask managerTick
  dsimp only
  split_ifs
  · exact h
  · exact hdecay
  · refine runState_attributed (driveScan_attributed hdecay) fun hlink => driveScan_handed ?_
    exact (Bool.and_eq_true_iff.mp hlink).2

/-! ### Commands -/

/-- What the edit brings to the place that the manager is trying is what the radio last took. -/
def HandedKept (c : Control) (e : PlaceEdit) : Prop :=
  ∀ p q, c.hist.handed = some p → e.brings c c.conn.trying = some q → q = p

/-- What the edit brings to a place with a status is what is saved there. -/
def StatusKept (c : Control) (e : PlaceEdit) : Prop :=
  ∀ i q, (c.conn.prof i).status ≠ .untried → e.brings c i = some q → c.savedAt i = some q

/-- A line the manager follows. If it edits the places, then the station is re-associated with a
profile that the radio takes; or else the edit brings no other profile to `trying` and, if nothing
is re-associated, none to the places with a status either. -/
def LineFollowed (board : Board) (c : Control) (line : CStr) : Prop :=
  ∀ e, c.placeEdit board line = some e →
    (e.applied ∧ e.Joins c ∧ c.env.connects.head? = some true) ∨
    (HandedKept c e ∧ (e.applied ∨ StatusKept c e))

theorem TryingMatch.of_places {c d : Control} {e : PlaceEdit} (h : TryingMatch c)
    (hmade : e.Made c d.cfg) (hhanded : HandedKept c e) (ht : d.conn.trying = c.conn.trying)
    (hh : d.hist = c.hist) : TryingMatch d := by
  intro p q hp hq
  rw [hh] at hp
  rw [ht] at hq
  rcases hmade.places c.conn.trying with hnone | hsame | hbrought
  · exact absurd (hnone.symm.trans hq) nofun
  · exact h p q hp (hsame.symm.trans hq)
  · exact hhanded p q hp (hbrought.symm.trans hq)

theorem TryingMatch.congr {c d : Control} (h : TryingMatch c)
    (hp : d.cfg.profiles = c.cfg.profiles) (ht : d.conn.trying = c.conn.trying)
    (hh : d.hist = c.hist) : TryingMatch d := by
  intro p q hhanded hq
  rw [savedAt, hp, ht] at hq
  rw [hh] at hhanded
  exact h p q hhanded hq

/-- A re-association starts with no status; it only needs the attempt to be true, or replaced. -/
theorem wifiConnApply_attributed {c : Control} (hcredits : CreditsHanded c)
    (h : TryingMatch c ∨ c.cfg.active < c.profileCount ∧ c.env.connects.head? = some true) :
    Attributed c.wifiConnApply := by
  -- the statuses are reset before the radio is asked
  have huntried : ∀ i, (c.scanRssi (fun _ => {}) i).status = .untried := fun i =>
    scanRssi_status c _ i
  have hslots : ∀ d : Control, d.conn.prof = c.scanRssi (fun _ => {}) → SlotsMatch d := by
    intro d hd
    rw [SlotsMatch, hd]
    exact ⟨fun i hi => absurd (huntried i) hi, fun i hi => by simp [huntried] at hi⟩
  unfold wifiConnApply
  dsimp only
  split_ifs with hactive
  · -- the old attempt is still true, or the radio takes the active profile
    rcases h with h | ⟨hlt, ha⟩
    · exact pinActive_attributed ⟨h, hslots _ rfl, hcredits⟩ hactive
    · refine tryLoop_accepted_attributed (hslots _ rfl) hcredits rfl ?_ ha
      intro j hj
      rw [List.mem_singleton.mp hj]
      exact hlt
  · rcases h with h | ⟨hlt, -⟩
    · exact .of_recorded ⟨h, hslots _ rfl, hcredits⟩ (by simp)
    · exact absurd hlt hactive

/-- The manager's part of the state is as it was, but for the unsaved mark. -/
def ManagerKept (c d : Control) : Prop :=
  (∃ creds, d.conn = { c.conn with credsUnsaved := creds }) ∧ d.hist = c.hist

/-- A line either leaves the manager alone, with at least as many profiles saved as before, or has
the station re-associated after an edit. -/
inductive LineOutcome (c d : Control) : Prop
  | quiet (kept : ManagerKept c d) (count : c.profileCount ≤ d.profileCount)
      (calls : ¬Reassociates c d)
  | applied (e : Control) (kept : ManagerKept c e) (env : e.env = c.env) (cfg : d.cfg = e.cfg)
      (conn : d.conn = e.wifiConnApply.conn) (hist : d.hist = e.wifiConnApply.hist)
      (calls : Reassociates c d)

theorem MainEffect.outcome {c d : Control} (h : MainEffect c d) : LineOutcome c d := by
  cases h with
  | kept only count calls =>
    obtain ⟨l, hl, hnot⟩ := calls
    refine .quiet ?_ count (by simpa [Reassociates, hl] using hnot)
    obtain ⟨_, creds, _, _, _, _, _, rfl⟩ := only
    exact ⟨⟨creds, rfl⟩, rfl⟩
  | @applied e _ only after =>
    obtain ⟨calls, out, rfl⟩ := after
    obtain ⟨l, hl⟩ := wifiConnApply_calls e
    -- the edit before the call made no calls of its own
    have hcalls : e.calls = c.calls := by
      obtain ⟨_, _, _, rfl⟩ := only
      rfl
    refine .applied e ?_ ?_ (wifiConnApply_cfg e) rfl rfl (by simp [Reassociates, hl, hcalls])
    · obtain ⟨_, creds, _, rfl⟩ := only
      exact ⟨⟨creds, rfl⟩, rfl⟩
    · obtain ⟨_, _, _, rfl⟩ := only
      rfl

theorem LineOutcome.of_scanOnly {c d e : Control} (h : ScanOnly c d)
    (hconn : e.conn = d.conn) (hhist : e.hist = d.hist) (hcfg : e.cfg = d.cfg)
    (hcalls : e.calls = d.calls) : LineOutcome c e := by
  obtain ⟨_, _, calls, rfl, hnot⟩ := h
  exact .quiet ⟨⟨c.conn.credsUnsaved, hconn⟩, hhist⟩ (by rw [profileCount, profileCount, hcfg])
    (by simpa [Reassociates, hcalls] using hnot)

theorem startScan_outcome (c : Control) : LineOutcome c c.startScan := by
  by_cases hs : c.scanStarts
  · rw [startScan_of_starts hs]
    exact .of_scanOnly (wifiScanStart_scanOnly c) rfl rfl rfl rfl
  · rw [startScan_of_refused (Bool.not_eq_true _ ▸ hs)]
    exact .of_scanOnly (wifiScanStart_scanOnly c) rfl rfl rfl rfl

theorem scanLive_outcome (c : Control) : LineOutcome c c.scanLive := by
  have hstart : ScanOnly c c.wifiLeave.wifiScanStart.2 :=
    ScanOnly.trans ⟨_, _, [.wifiLeave], rfl, by simp⟩ (wifiScanStart_scanOnly _)
  unfold scanLive
  split
  · next heq =>
    rw [heq] at hstart
    exact .of_scanOnly hstart rfl rfl rfl rfl
  · next heq =>
    rw [heq] at hstart
    exact .of_scanOnly hstart rfl rfl rfl rfl

theorem scanJoin_outcome (c : Control) (args : CStr) : LineOutcome c (c.scanJoin args) := by
  unfold scanJoin
  split
  · exact (MainEffect.say c _).outcome
  · next i _ =>
    have h := ((joinSsid_effect { c with proto.mode := .main } (c.scan.results i).ssid
      (some ((c.scan.results i).auth = 0))).reply .dump).outcome
    cases h with
    | quiet kept count calls => exact .quiet kept count calls
    | applied e kept env cfg conn hist calls => exact .applied e kept env cfg conn hist calls

theorem handleScan_outcome (c : Control) (cmd : CStr) (args : Option CStr) :
    LineOutcome c (c.handleScan cmd args) := by
  have hcase := handleScan_case c cmd args
  generalize c.handleScan cmd args = d at hcase ⊢
  cases hcase with
  | back => exact .of_scanOnly (.refl c) rfl rfl rfl rfl
  | scan => exact startScan_outcome c
  | live => exact scanLive_outcome c
  | join => exact scanJoin_outcome c _
  | unknown s => exact (MainEffect.say c s).outcome

theorem handleLine_outcome (board : Board) (c : Control) (line : CStr) :
    LineOutcome c (c.handleLine board line) := by
  have hcase := handleLine_case board c line
  generalize c.handleLine board line = d at hcase ⊢
  cases hcase with
  | listScan => exact (MainEffect.of_edit ((EditOnly.refl c).reply _) le_rfl).outcome
  | dump => exact (MainEffect.of_edit ((EditOnly.refl c).reply _) le_rfl).outcome
  | scan => exact handleScan_outcome c _ _
  | main =>
    by_cases hscan : isWord (splitLine (trimLine line)).1 "SCAN"
    · rw [handleMain_scan board c _ _ hscan]
      exact startScan_outcome c
    · exact (handleMain_effect board c _ _ hscan).outcome

/-- An edit that gives up no place and brings nothing else to those that matter. -/
theorem Recorded.of_places {c d : Control} {e : PlaceEdit} (h : Recorded c)
    (hkept : ManagerKept c d) (hcount : c.profileCount ≤ d.profileCount) (hmade : e.Made c d.cfg)
    (hhanded : HandedKept c e) (hstatus : StatusKept c e) : Recorded d := by
  obtain ⟨⟨creds, hconn⟩, hhist⟩ := hkept
  -- no place is given up, so a profile with a status is where it was
  have hsaved : ∀ i p, (c.conn.prof i).status ≠ .untried → c.savedAt i = some p →
      d.savedAt i = some p := by
    intro i p hi hp
    have hlt : i < c.profileCount := (List.getElem?_eq_some_iff.mp hp).1
    have hsome := savedAt_of_lt (hlt.trans_le hcount)
    rcases hmade.places i with hnone | hsame | hbrought
    · exact absurd (hnone.symm.trans hsome) nofun
    · exact hsame.trans hp
    · exact hsome.trans ((hstatus i _ hi (hbrought.symm.trans hsome)).symm.trans hp)
  refine ⟨h.trying.of_places hmade hhanded (by rw [hconn]) hhist,
    ⟨fun i hi => ?_, fun i hi => ?_⟩, ?_⟩
  · rw [hconn] at hi
    obtain ⟨p, hp, hp'⟩ := h.slots.1 i hi
    rw [hhist]
    exact ⟨p, hp, hsaved i p hi hp'⟩
  · rw [hconn] at hi
    obtain ⟨p, hp, hp'⟩ := h.slots.2 i hi
    rw [hhist]
    exact ⟨p, hp, hsaved i p (hi.symm ▸ by decide) hp'⟩
  · rw [CreditsHanded, hhist]
    exact h.credits

/-- The attempt goes on while nothing is re-associated. -/
theorem Attributed.quiet {c d : Control} (h : Attributed c) (hkept : ManagerKept c d)
    (hcount : c.profileCount ≤ d.profileCount) (hd : Recorded d) : Attributed d := by
  obtain ⟨⟨creds, hconn⟩, hhist⟩ := hkept
  refine ⟨hd, ?_, ?_⟩
  · rw [hconn]
    exact fun hs i hi => (h.candidates hs i hi).trans_le hcount
  · rw [hconn, hhist]
    exact fun hs => ⟨(h.attempt hs).1.trans_le hcount, (h.attempt hs).2⟩

theorem handleLine_attributed {board : Board} {c : Control} {line : CStr} (h : Attributed c)
    (hline : LineFollowed board c line) : Attributed (c.handleLine board line) := by
  have hplaces := handleLine_places board c line
  have houtcome := handleLine_outcome board c line
  generalize c.handleLine board line = d at hplaces houtcome ⊢
  rcases houtcome with ⟨hkept, hcount, hcalls⟩ |
    ⟨e, ⟨⟨creds, hconn⟩, hhist⟩, henv, hcfg, hconn', hhist', hcalls⟩
  · refine h.quiet hkept hcount ?_
    cases hplaces with
    | kept hprofiles =>
      obtain ⟨⟨creds, hconn⟩, hhist⟩ := hkept
      exact h.toRecorded.congr hprofiles (by rw [hconn]) hhist (by rw [hconn])
    | edited asked made applied =>
      -- nothing is re-associated, so the edit is not an applied one
      rcases hline _ asked with ⟨happlied, -⟩ | ⟨hhanded, happlied | hstatus⟩
      · exact absurd (applied happlied) hcalls
      · exact absurd (applied happlied) hcalls
      · exact h.toRecorded.of_places hkept hcount made hhanded hstatus
  · -- the station is re-associated: what matters is the place the manager takes up next
    have happly : Attributed e.wifiConnApply := by
      refine wifiConnApply_attributed (by rw [CreditsHanded, hhist]; exact h.credits) ?_
      cases hplaces with
      | kept hprofiles =>
        rw [hcfg] at hprofiles
        exact .inl (h.trying.congr hprofiles (by rw [hconn]) hhist)
      | edited asked made =>
        rw [hcfg] at made
        rcases hline _ asked with ⟨-, hjoins, ha⟩ | ⟨hhanded, -⟩
        · right
          rw [henv]
          exact ⟨made.joins hjoins, ha⟩
        · exact .inl (h.trying.of_places made hhanded (by rw [hconn]) hhist)
    exact happly.congr (by rw [hcfg, wifiConnApply_cfg]) hconn' hhist'

/-! ### Runs -/

/-- Every line an event has the interpreter handle is one the manager follows. -/
def EventFollowed (board : Board) (c : Control) (e : ControlEvent) : Prop :=
  ∀ x ∈ handled board c e, LineFollowed board x.1 x.2

theorem eventFollowed_portal {board : Board} {c : Control} {env : Env} {body : Bytes}
    (h : LineFollowed board { c with env := env } (portalLine body)) :
    EventFollowed board c (.portal env body) := by
  intro x hx
  unfold handled at hx
  split_ifs at hx
  · cases hx
  · rw [List.mem_singleton.mp hx]
    exact h

theorem eventFollowed_manager (board : Board) (c : Control) (env : Env) :
    EventFollowed board c (.manager env) := by
  intro x hx
  unfold handled at hx
  split_ifs at hx <;> cases hx

theorem consolePoll_attributed {c : Control} (h : Attributed c) (connected : Bool) :
    Attributed (c.consolePoll connected) := by
  have hedge : Attributed (c.consoleEdge connected) := by
    unfold consoleEdge
    dsimp only
    split_ifs
    · exact h.congr rfl rfl rfl
    · exact h.congr rfl rfl rfl
    · exact h
  obtain ⟨hconn, hhist, hcfg, -⟩ := protoPoll_frame (c.consoleEdge connected)
  unfold consolePoll
  dsimp only
  split_ifs
  · exact hedge.congr (by rw [hcfg]) hconn hhist
  · exact hedge

theorem step_attributed {board : Board} {c : Control} {e : ControlEvent} (h : Attributed c)
    (he : EventFollowed board c e) : Attributed (c.step board e) := by
  unfold EventFollowed handled at he
  unfold step
  by_cases hhalt : c.halted
  · rw [if_pos hhalt]
    exact h
  · rw [if_neg hhalt] at he ⊢
    cases e with
    | console env connected rx =>
      have hpoll := consolePoll_attributed (c := { c with env := env }) (h.congr rfl rfl rfl)
        connected
      dsimp only at he ⊢
      unfold serialConsoleTask consoleRead
      -- in the live scan a key only stops it
      by_cases hlive : ({ c with env := env }.consolePoll connected).proto.mode = .contscan
      · rw [if_pos hlive]
        split_ifs
        · exact hpoll
        · exact hpoll.congr rfl rfl rfl
      · rw [if_neg hlive] at he ⊢
        refine foldl_consoleByte (fun c _ _ hc => hc.congr rfl rfl rfl) ?_ hpoll
        exact fun x hx hc => handleLine_attributed hc (he x hx)
    | portal env body =>
      exact handleLine_attributed (h.congr rfl rfl rfl) (he _ (List.mem_singleton.mpr rfl))
    | portalScan => exact ⟨h.toRecorded.congr rfl rfl rfl rfl, h.candidates, h.attempt⟩
    | manager env => exact wifiConnTask_attributed (h.congr rfl rfl rfl)
    | report r => exact h.congr rfl rfl rfl

theorem wifiConnInit_attributed {c : Control} (h : Recorded c) : Attributed c.wifiConnInit := by
  have hreset : Recorded { c with conn.prof := fun _ => {} } :=
    h.of_forget rfl rfl rfl fun _ => .inr rfl
  unfold wifiConnInit
  dsimp only
  split_ifs with hactive
  · exact pinActive_attributed hreset.snapshotRssi hactive
  · exact .of_recorded (hreset.snapshotRssi.congr rfl rfl rfl rfl) (by simp)
  · exact .of_recorded (hreset.snapshotRssi.congr rfl rfl rfl rfl) (by simp)

theorem boot_attributed (board : Board) (flash : Option Config) (env : Env) :
    Attributed (boot board flash env) := by
  refine wifiConnInit_attributed ⟨fun p q hp => ?_, ⟨fun i hi => absurd rfl hi, fun i hi => ?_⟩,
    fun cr hcr => ?_⟩
  · cases hp
  · cases hi
  · cases hcr

/-- **Join attribution.** In a run whose command lines the manager can follow, every join is
credited to the profile whose credentials the radio took last, and every runtime status belongs to
the profile saved in its place. -/
theorem join_attribution {board : Board} {c : Control}
    (h : ReachedBy board (EventFollowed board) c) : CreditsHanded c ∧ SlotsMatch c := by
  have hinv : Attributed c := by
    refine Reach.invariant ?_ (fun s e _ he hs => step_attributed hs he) h
    rintro s ⟨flash, env, rfl⟩
    exact boot_attributed board flash env
  exact ⟨hinv.credits, hinv.slots⟩

/-- A full list of secured networks, the last of which is selected. -/
def fullConfig : Config where
  profiles := ⟨(List.range 8).map fun i => ⟨[97 + i.toUInt8], ascii "password"⟩, by decide⟩
  active := 7

/-- The eighth network is being tried when the portal stages a ninth. Its link then comes up. -/
theorem join_attribution_fails :
    ¬∀ (board : Board) (c : Control), ReachedBy board (fun _ _ => True) c →
      CreditsHanded c ∧ SlotsMatch c := by
  intro hclaim
  have hstart : ReachedBy plainBoard (fun _ _ => True)
      (boot plainBoard (some fullConfig) { connects := [true] }) := .start ⟨_, _, rfl⟩
  have hrun := (hstart.step (a := .portal {} (ascii "join new")) trivial).step
    (a := .manager { now := 100, link := true }) trivial
  -- the ninth network has taken the place of the eighth, which the radio is joining
  have hcredit := (hclaim _ _ hrun).1
    ⟨⟨ascii "new", []⟩, some ⟨ascii "h", ascii "password"⟩⟩ (by decide +kernel)
  exact absurd hcredit (by decide +kernel)

/-- The portal deletes the first network instead, which moves the others down. The radio takes the
eighth again, and its link comes up. -/
def deletedRun : Control :=
  ((boot plainBoard (some fullConfig) { connects := [true] }).step plainBoard
    (.portal { connects := [true] } (ascii "del 1"))).step plainBoard
      (.manager { now := 100, link := true })

theorem join_attribution_used :
    (CreditsHanded deletedRun ∧ SlotsMatch deletedRun) ∧
      deletedRun.hist.credits.map (·.profile) = [⟨ascii "h", ascii "password"⟩] := by
  have hfollowed : LineFollowed plainBoard
      { boot plainBoard (some fullConfig) { connects := [true] } with env.connects := [true] }
      (portalLine (ascii "del 1")) := by
    have hasked : Control.placeEdit plainBoard
        { boot plainBoard (some fullConfig) { connects := [true] } with env.connects := [true] }
        (portalLine (ascii "del 1")) = some (.delete 0) := by decide +kernel
    intro e he
    obtain rfl : PlaceEdit.delete 0 = e := Option.some.inj (hasked.symm.trans he)
    exact .inl ⟨rfl, ⟨by decide +kernel, by decide +kernel⟩, rfl⟩
  refine ⟨join_attribution (.step (.step (.start ⟨_, _, rfl⟩) ?_) ?_), by decide +kernel⟩
  · exact eventFollowed_portal hfollowed
  · exact eventFollowed_manager _ _ _

end Control

end Molewire
