/-
# Edits of the profile list

What adding, touching and deleting a profile do to the list of saved networks in
which the active one is marked. The edits are plain list operations there: the
mark travels with its entry, whatever the array shifts do to the index, and
moves to the front only when its own entry is deleted.
-/

import Molewire.Config
import Molewire.Library.MarkedList

namespace Molewire

open MarkedList

/-! ### The list with its mark -/

/-- The saved networks, each with whether it is the active one. -/
def networks (cfg : Config) : List (WifiProfile × Bool) :=
  marked cfg.profiles.entries cfg.active

/-- `active` names an entry or is `CONFIG_ACTIVE_NONE`. -/
def ActiveValid (cfg : Config) : Prop :=
  cfg.active < cfg.profiles.entries.length ∨ cfg.active = configActiveNone

instance (cfg : Config) : Decidable (ActiveValid cfg) :=
  inferInstanceAs (Decidable (_ ∨ _))

/-- The three edits of `config.h`. -/
inductive ProfileOp
  | add (ssid : CStr)
  | touch (i : Nat)
  | del (i : Nat)

/-- The entry `config_add_profile` appends. -/
def newProfile (ssid : CStr) : WifiProfile := ⟨ssid.take (configSsidMax - 1), []⟩

/-- One edit. A call that returns -1 leaves the list as it is. -/
def ProfileOp.step (cfg : Config) : ProfileOp → Config
  | .add ssid => (configAddProfile cfg ssid).elim cfg Prod.snd
  | .touch i => (configTouchProfile cfg i).getD cfg
  | .del i => configDelProfile cfg i

/-- What an edit may do to the marked list: nothing but take out or move the entry it names, or
append the new one, which costs a full list the last entry without the mark. -/
inductive ListStep :
    ProfileOp → List (WifiProfile × Bool) → List (WifiProfile × Bool) → Prop
  | append {ssid : CStr} {l : List (WifiProfile × Bool)} (room : l.length < configProfileMax) :
      ListStep (.add ssid) l (l ++ [(newProfile ssid, false)])
  | evict {ssid : CStr} {l r : List (WifiProfile × Bool)} {p : WifiProfile}
      (full : (l ++ (p, false) :: r).length = configProfileMax)
      (last : ∀ e ∈ r, e.2 = true) :
      ListStep (.add ssid) (l ++ (p, false) :: r) (l ++ r ++ [(newProfile ssid, false)])
  | front {i : Nat} {l r : List (WifiProfile × Bool)} {e : WifiProfile × Bool}
      (at_i : l.length = i) : ListStep (.touch i) (l ++ e :: r) (e :: (l ++ r))
  | noTouch {i : Nat} {l : List (WifiProfile × Bool)} (past : l.length ≤ i) :
      ListStep (.touch i) l l
  | forget {i : Nat} {l r : List (WifiProfile × Bool)} {p : WifiProfile}
      (at_i : l.length = i) : ListStep (.del i) (l ++ (p, false) :: r) (l ++ r)
  | forgetActive {i : Nat} {l r : List (WifiProfile × Bool)} {p : WifiProfile}
      (at_i : l.length = i) : ListStep (.del i) (l ++ (p, true) :: r) (markFront (l ++ r))
  | noDel {i : Nat} {l : List (WifiProfile × Bool)} (past : l.length ≤ i) :
      ListStep (.del i) l l

@[simp] theorem length_networks (cfg : Config) :
    (networks cfg).length = cfg.profiles.entries.length := length_marked _ _

/-- The marked list around an entry. -/
theorem networks_split {cfg : Config} {i : Nat} (hi : i < cfg.profiles.entries.length) :
    networks cfg = (networks cfg).take i ++
      (cfg.profiles.entries[i], i == cfg.active) :: (networks cfg).drop (i + 1) := by
  have hget : (networks cfg)[i]? = some (cfg.profiles.entries[i], i == cfg.active) := by
    rw [networks, getElem?_marked, List.getElem?_eq_getElem hi, Option.map_some]
  have hlt : i < (networks cfg).length := by rwa [length_networks]
  obtain ⟨hlt', heq⟩ := List.getElem?_eq_some_iff.mp hget
  rw [← heq, List.getElem_cons_drop, List.take_append_drop]

theorem length_take_networks {cfg : Config} {i : Nat} (hi : i < cfg.profiles.entries.length) :
    ((networks cfg).take i).length = i := by
  rw [List.length_take, length_networks]
  omega

/-! ### Deleting -/

theorem configDelProfile_active {cfg : Config} {i : Nat}
    (hi : i < cfg.profiles.entries.length) :
    (configDelProfile cfg i).active =
      if cfg.active = i ∨ (cfg.profiles.entries.eraseIdx i).length = 0 then
        if (cfg.profiles.entries.eraseIdx i).length = 0 then configActiveNone else 0
      else if cfg.active ≠ configActiveNone ∧ i < cfg.active then cfg.active - 1
      else cfg.active := by
  unfold configDelProfile
  dsimp only
  rw [if_neg (Nat.not_le_of_lt hi)]

theorem configDelProfile_of_le {cfg : Config} {i : Nat}
    (hi : cfg.profiles.entries.length ≤ i) : configDelProfile cfg i = cfg := by
  unfold configDelProfile
  dsimp only
  rw [if_pos hi]

/-- The mark stays on its entry when another one is deleted. -/
theorem networks_del {cfg : Config} {i : Nat}
    (hi : i < cfg.profiles.entries.length) (hne : cfg.active ≠ i) :
    networks (configDelProfile cfg i) = (networks cfg).eraseIdx i := by
  have hmax := cfg.profiles.le_max
  have hlen := List.length_eraseIdx_of_lt hi
  rw [networks, networks, configDelProfile_entries, ← marked_eraseIdx hne]
  apply marked_congr
  intro j hj
  rw [configDelProfile_active hi]
  simp only [configProfileMax, configActiveNone] at hmax ⊢
  -- `active` moves as the position does, and no index is near `CONFIG_ACTIVE_NONE`
  grind [eraseShift]

/-- With the active entry itself the mark goes to the front. -/
theorem networks_del_active {cfg : Config} (hi : cfg.active < cfg.profiles.entries.length) :
    networks (configDelProfile cfg cfg.active) =
      markFront ((networks cfg).eraseIdx cfg.active) := by
  rw [networks, networks, configDelProfile_entries, ← marked_eraseIdx_self]
  apply marked_congr
  intro j hj
  -- an entry is left, so the first one is active
  have hrest : (cfg.profiles.entries.eraseIdx cfg.active).length ≠ 0 := by omega
  rw [configDelProfile_active hi, if_pos (.inl rfl), if_neg hrest]

theorem activeValid_del {cfg : Config} (hvalid : ActiveValid cfg) (i : Nat) :
    ActiveValid (configDelProfile cfg i) := by
  rcases Nat.lt_or_ge i cfg.profiles.entries.length with hi | hi
  · have hlen := List.length_eraseIdx_of_lt hi
    unfold ActiveValid at hvalid ⊢
    rw [configDelProfile_entries, configDelProfile_active hi]
    simp only [configActiveNone] at hvalid ⊢
    grind
  · rw [configDelProfile_of_le hi]
    exact hvalid

theorem step_del (cfg : Config) (i : Nat) :
    ListStep (.del i) (networks cfg) (networks (configDelProfile cfg i)) := by
  rcases Nat.lt_or_ge i cfg.profiles.entries.length with hi | hi
  · have hat := length_take_networks hi
    by_cases hactive : cfg.active = i
    · subst hactive
      rw [networks_del_active hi, List.eraseIdx_eq_take_drop_succ]
      nth_rewrite 1 [networks_split hi]
      rw [beq_self_eq_true]
      exact .forgetActive hat
    · rw [networks_del hi hactive, List.eraseIdx_eq_take_drop_succ]
      nth_rewrite 1 [networks_split hi]
      rw [beq_false_of_ne (Ne.symm hactive)]
      exact .forget hat
  · rw [configDelProfile_of_le hi]
    exact .noDel (by rwa [length_networks])

/-! ### Touching -/

theorem configTouchProfile_of_le {cfg : Config} {i : Nat}
    (hi : cfg.profiles.entries.length ≤ i) : configTouchProfile cfg i = none := by
  unfold configTouchProfile
  split
  case h_1 => rfl
  case h_2 moved hmoved =>
    rw [List.getElem?_eq_none hi] at hmoved
    cases hmoved

theorem configTouchProfile_moveToFront {cfg : Config} {i : Nat}
    (hi : i < cfg.profiles.entries.length) :
    ((configTouchProfile cfg i).getD cfg).profiles.entries =
      moveToFront i cfg.profiles.entries := by
  have hget := List.getElem?_eq_getElem hi
  unfold configTouchProfile
  split
  case h_1 hnone =>
    rw [hget] at hnone
    cases hnone
  case h_2 moved hmoved =>
    obtain rfl : cfg.profiles.entries[i] = moved := Option.some.inj (hget.symm.trans hmoved)
    by_cases hzero : i = 0
    · subst hzero
      simp
    · simp [hzero, moveToFront, hget]

/-- The index follows the entry it names to its new place. -/
theorem configTouchProfile_frontShift {cfg : Config} {i : Nat}
    (hi : i < cfg.profiles.entries.length) :
    ((configTouchProfile cfg i).getD cfg).active = frontShift i cfg.active := by
  have hmax := cfg.profiles.le_max
  have hget := List.getElem?_eq_getElem hi
  unfold configTouchProfile frontShift
  simp only [configProfileMax, configActiveNone] at hmax ⊢
  split
  case h_1 hnone =>
    rw [hget] at hnone
    cases hnone
  case h_2 => grind

theorem networks_touch {cfg : Config} {i : Nat} (hi : i < cfg.profiles.entries.length) :
    networks ((configTouchProfile cfg i).getD cfg) = moveToFront i (networks cfg) := by
  rw [networks, configTouchProfile_moveToFront hi, configTouchProfile_frontShift hi,
    marked_moveToFront hi, networks]

theorem activeValid_touch {cfg : Config} (hvalid : ActiveValid cfg) (i : Nat) :
    ActiveValid ((configTouchProfile cfg i).getD cfg) := by
  rcases Nat.lt_or_ge i cfg.profiles.entries.length with hi | hi
  · have hmax := cfg.profiles.le_max
    unfold ActiveValid at hvalid ⊢
    rw [configTouchProfile_moveToFront hi, configTouchProfile_frontShift hi,
      length_moveToFront hi]
    simp only [configProfileMax, configActiveNone] at hvalid hmax ⊢
    grind [frontShift]
  · rw [configTouchProfile_of_le hi, Option.getD_none]
    exact hvalid

theorem step_touch (cfg : Config) (i : Nat) :
    ListStep (.touch i) (networks cfg) (networks ((configTouchProfile cfg i).getD cfg)) := by
  rcases Nat.lt_or_ge i cfg.profiles.entries.length with hi | hi
  · have hlt : i < (networks cfg).length := by rwa [length_networks]
    have hmoved : moveToFront i (networks cfg) =
        (cfg.profiles.entries[i], i == cfg.active) ::
          ((networks cfg).take i ++ (networks cfg).drop (i + 1)) := by
      rw [moveToFront, List.eraseIdx_eq_take_drop_succ, networks, getElem?_marked,
        List.getElem?_eq_getElem hi]
      rfl
    rw [networks_touch hi, hmoved]
    nth_rewrite 1 [networks_split hi]
    exact .front (length_take_networks hi)
  · rw [configTouchProfile_of_le hi, Option.getD_none]
    exact .noTouch (by rwa [length_networks])

/-! ### Adding -/

/-- The entry a full list gives up is the last one without the mark. -/
theorem addVictim_spec {cfg : Config} {v : Nat} (h : addVictim cfg = some v)
    (hfull : configProfileMax ≤ cfg.profiles.entries.length) :
    v < cfg.profiles.entries.length ∧ cfg.active ≠ v ∧
      ∀ j, v < j → j < cfg.profiles.entries.length → cfg.active = j := by
  unfold addVictim at h
  simp only [configProfileMax] at hfull h
  -- the last entry, or the one before it when the last is active
  split_ifs at h with hlast hzero
  · obtain rfl := Option.some.inj h
    exact ⟨by omega, by omega, fun j _ _ => by omega⟩
  · obtain rfl := Option.some.inj h
    exact ⟨by omega, hlast, fun j _ _ => by omega⟩

theorem addVictim_of_full {cfg : Config} (hfull : configProfileMax ≤ cfg.profiles.entries.length) :
    ∃ v, addVictim cfg = some v := by
  unfold addVictim
  simp only [configProfileMax] at hfull ⊢
  split_ifs with hlast hzero
  · omega
  · exact ⟨_, rfl⟩
  · exact ⟨_, rfl⟩

theorem configAddProfile_room {cfg : Config} (ssid : CStr)
    (hroom : cfg.profiles.entries.length < configProfileMax) :
    ∃ cfg', configAddProfile cfg ssid = some (cfg.profiles.entries.length, cfg') ∧
      cfg'.profiles.entries = cfg.profiles.entries ++ [newProfile ssid] ∧
        cfg'.active = cfg.active := by
  unfold configAddProfile
  rw [if_neg (Nat.not_le_of_lt hroom), Option.bind_some, dif_pos hroom]
  exact ⟨_, rfl, rfl, rfl⟩

/-- A full list is added to as what is left of it. -/
theorem configAddProfile_full {cfg : Config} {v : Nat} (ssid : CStr)
    (hfull : configProfileMax ≤ cfg.profiles.entries.length) (h : addVictim cfg = some v) :
    configAddProfile cfg ssid = configAddProfile (configDelProfile cfg v) ssid ∧
      (configDelProfile cfg v).profiles.entries.length < configProfileMax := by
  have hmax := cfg.profiles.le_max
  have hroom : (configDelProfile cfg v).profiles.entries.length < configProfileMax := by
    rw [configDelProfile_entries, List.length_eraseIdx_of_lt (addVictim_spec h hfull).1]
    simp only [configProfileMax] at hmax ⊢
    omega
  refine ⟨?_, hroom⟩
  unfold configAddProfile
  rw [if_pos hfull, h, if_neg (Nat.not_le_of_lt hroom)]
  rfl

/-- Adding never fails: a full list has an entry to give up. -/
theorem configAddProfile_isSome (cfg : Config) (ssid : CStr) :
    ∃ p cfg', configAddProfile cfg ssid = some (p, cfg') := by
  rcases Nat.lt_or_ge cfg.profiles.entries.length configProfileMax with hroom | hfull
  · obtain ⟨cfg', hadd, -⟩ := configAddProfile_room ssid hroom
    exact ⟨_, cfg', hadd⟩
  · obtain ⟨v, hv⟩ := addVictim_of_full hfull
    obtain ⟨hadd, hroom⟩ := configAddProfile_full ssid hfull hv
    obtain ⟨cfg', hadd', -⟩ := configAddProfile_room ssid hroom
    exact ⟨_, cfg', hadd.trans hadd'⟩

/-- With room the new entry goes behind the others, unmarked. -/
theorem networks_add_room {cfg : Config} (hvalid : ActiveValid cfg) (ssid : CStr)
    (hroom : cfg.profiles.entries.length < configProfileMax) :
    networks (ProfileOp.step cfg (.add ssid)) = networks cfg ++ [(newProfile ssid, false)] ∧
      ActiveValid (ProfileOp.step cfg (.add ssid)) := by
  obtain ⟨cfg', hadd, hentries, hactive⟩ := configAddProfile_room ssid hroom
  have hstep : ProfileOp.step cfg (.add ssid) = cfg' := by
    simp only [ProfileOp.step, hadd, Option.elim_some]
  unfold ActiveValid at hvalid ⊢
  rw [hstep, networks, hentries, hactive]
  simp only [configProfileMax, configActiveNone] at hroom hvalid ⊢
  refine ⟨?_, ?_⟩
  · have hpast : cfg.active ≠ cfg.profiles.entries.length := by omega
    exact marked_append hpast _
  · rw [List.length_append]
    omega

theorem step_add {cfg : Config} (hvalid : ActiveValid cfg) (ssid : CStr) :
    ListStep (.add ssid) (networks cfg) (networks (ProfileOp.step cfg (.add ssid))) ∧
      ActiveValid (ProfileOp.step cfg (.add ssid)) := by
  rcases Nat.lt_or_ge cfg.profiles.entries.length configProfileMax with hroom | hfull
  · obtain ⟨hnetworks, hvalid'⟩ := networks_add_room hvalid ssid hroom
    rw [hnetworks]
    exact ⟨.append (by rwa [length_networks]), hvalid'⟩
  · obtain ⟨v, hv⟩ := addVictim_of_full hfull
    obtain ⟨hlt, hne, hlast⟩ := addVictim_spec hv hfull
    obtain ⟨hadd, hroom⟩ := configAddProfile_full ssid hfull hv
    have hstep : ProfileOp.step cfg (.add ssid) =
        ProfileOp.step (configDelProfile cfg v) (.add ssid) := by
      simp only [ProfileOp.step, hadd]
      obtain ⟨cfg', hcfg', -⟩ := configAddProfile_room ssid hroom
      rw [hcfg', Option.elim_some, Option.elim_some]
    obtain ⟨hnetworks, hvalid'⟩ := networks_add_room (activeValid_del hvalid v) ssid hroom
    rw [hstep, hnetworks, networks_del hlt hne, List.eraseIdx_eq_take_drop_succ]
    refine ⟨?_, hvalid'⟩
    have hsplit := networks_split hlt
    rw [beq_false_of_ne (Ne.symm hne)] at hsplit
    nth_rewrite 1 [hsplit]
    apply ListStep.evict
    · rw [← hsplit, length_networks]
      exact Nat.le_antisymm cfg.profiles.le_max hfull
    · -- what is behind the victim is the active entry, if anything
      intro e he
      obtain ⟨j, hj⟩ := List.mem_iff_getElem?.mp he
      rw [List.getElem?_drop, networks, getElem?_marked, Option.map_eq_some_iff] at hj
      obtain ⟨x, hx, rfl⟩ := hj
      have hjlt := (List.getElem?_eq_some_iff.mp hx).1
      exact beq_iff_eq.mpr (hlast (v + 1 + j) (by omega) hjlt).symm

/-! ### Sequences of edits -/

theorem ProfileOp.step_spec {cfg : Config} (hvalid : ActiveValid cfg) (op : ProfileOp) :
    ListStep op (networks cfg) (networks (op.step cfg)) ∧ ActiveValid (op.step cfg) := by
  cases op with
  | add ssid => exact step_add hvalid ssid
  | touch i => exact ⟨step_touch cfg i, activeValid_touch hvalid i⟩
  | del i => exact ⟨step_del cfg i, activeValid_del hvalid i⟩

theorem activeValid_edits {cfg : Config} (hvalid : ActiveValid cfg) (ops : List ProfileOp) :
    ActiveValid (ops.foldl ProfileOp.step cfg) := by
  induction ops generalizing cfg with
  | nil => exact hvalid
  | cons op rest ih => exact ih (ProfileOp.step_spec hvalid op).2

/-- After any edits, the next one does to the marked list only what it is there for. -/
theorem profile_edits_keep {cfg : Config} (hvalid : ActiveValid cfg) (ops : List ProfileOp)
    (op : ProfileOp) :
    ListStep op (networks (ops.foldl ProfileOp.step cfg))
        (networks ((ops ++ [op]).foldl ProfileOp.step cfg)) ∧
      ActiveValid ((ops ++ [op]).foldl ProfileOp.step cfg) := by
  rw [List.foldl_append]
  exact ProfileOp.step_spec (activeValid_edits hvalid ops) op

/-- Networks `a` to `h`, the last one active. -/
def fullList : Config :=
  { profiles := ⟨(ascii "abcdefgh").map fun c => ⟨[c], [c, c]⟩, by decide⟩, active := 7 }

theorem profile_edits_keep_full :
    ListStep (.add (ascii "new")) (networks ([.touch 3].foldl ProfileOp.step fullList))
        (networks ([.touch 3, .add (ascii "new")].foldl ProfileOp.step fullList)) ∧
      ActiveValid ([.touch 3, .add (ascii "new")].foldl ProfileOp.step fullList) :=
  profile_edits_keep (.inl (by decide)) [.touch 3] (.add (ascii "new"))

end Molewire
