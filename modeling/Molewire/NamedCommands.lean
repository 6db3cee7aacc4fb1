/-
# Commands that name a network

The page deletes and joins by name, since a number in the list may mean another
network by the time the line arrives. What comes of the name between the body of
the request and the lookup: the text ends at a newline, blanks at its end are
dropped, and a number is taken for a place in the list after all.
-/

import Mathlib.Data.List.DropRight
import Molewire.SavedNames

namespace Molewire

open ByteBuffer Transition

/-! ### The text of the line -/

/-- What arrives of a name at the end of a line. -/
def sentName (s : CStr) : CStr := trimLine (s.takeWhile fun ch => !isNewline ch)

theorem trimLine_append (a b : CStr) :
    trimLine (a ++ b) = if trimLine b = [] then trimLine a else a ++ trimLine b := by
  simp only [trimLine, List.rdropWhile, List.reverse_append, List.dropWhile_append,
    List.isEmpty_iff, List.reverse_eq_nil_iff]
  split_ifs
  · rfl
  · rw [List.reverse_append, List.reverse_reverse]

/-- A command word: no blank, no newline and no zero. -/
def CommandWord (word : CStr) : Prop := ∀ ch ∈ word, ch ≠ 0 ∧ ch ≠ 32 ∧ isNewline ch = false

instance (word : CStr) : Decidable (CommandWord word) :=
  inferInstanceAs (Decidable (∀ ch ∈ word, _))

theorem portalLine_word {word s : CStr} (hword : CommandWord word) (hnul : 0 ∉ s) :
    portalLine (word ++ 32 :: s) = word ++ 32 :: s.takeWhile fun ch => !isNewline ch := by
  -- neither the word nor the name holds a zero, so the body is one C string
  have hcstr : cstr (word ++ 32 :: s) = word ++ 32 :: s := by
    unfold cstr
    rw [List.takeWhile_eq_self_iff]
    intro ch hch
    rcases List.mem_append.mp hch with hch | hch
    · exact decide_eq_true (hword ch hch).1
    · rcases List.mem_cons.mp hch with rfl | hch
      · rfl
      · exact decide_eq_true fun hzero => hnul (hzero ▸ hch)
  have hline : word.takeWhile (fun ch => !isNewline ch) = word := by
    rw [List.takeWhile_eq_self_iff]
    intro ch hch
    rw [(hword ch hch).2.2]
    rfl
  rw [portalLine, hcstr, List.takeWhile_append, hline, if_pos rfl]
  rfl

theorem splitLine_word {word : CStr} (hword : CommandWord word) (args : CStr) :
    splitLine (word ++ 32 :: args) = (word, some args) := by
  have hblank : ∀ ch ∈ word, (ch != 32) = true := fun ch hch => bne_iff_ne.mpr (hword ch hch).2.1
  -- the first blank is the one behind the word, whatever the name holds
  have hdrop : (word ++ 32 :: args).dropWhile (· != 32) = 32 :: args := by
    rw [List.dropWhile_append, List.dropWhile_eq_nil_iff.mpr hblank]
    rfl
  have htake : (word ++ 32 :: args).takeWhile (· != 32) = word := by
    rw [List.takeWhile_append, List.takeWhile_eq_self_iff.mpr hblank, if_pos rfl]
    exact List.append_nil word
  rw [splitLine, strchrCut, hdrop, htake]

theorem splitLine_bare {word : CStr} (hword : CommandWord word) :
    splitLine word = (word, none) := by
  have hblank : ∀ ch ∈ word, (ch != 32) = true := fun ch hch => bne_iff_ne.mpr (hword ch hch).2.1
  rw [splitLine, strchrCut, List.dropWhile_eq_nil_iff.mpr hblank]

theorem trimLine_word {word : CStr} (hword : CommandWord word) : trimLine word = word := by
  rw [trimLine, List.rdropWhile_eq_self_iff]
  intro hne hlast
  obtain ⟨-, hblank, hnewline⟩ := hword _ (List.getLast_mem hne)
  simp only [decide_eq_true_eq] at hlast
  rcases hlast with hcr | hspace
  · rw [hcr] at hnewline
    cases hnewline
  · exact hblank hspace

/-- The name arrives as it was sent if nothing cuts it short. -/
theorem sentName_eq_iff {s : CStr} :
    sentName s = s ↔ (∀ ch ∈ s, ¬isNewline ch) ∧ s.getLast? ≠ some 32 := by
  -- the two cuts only shorten, so they are both idle if the text comes out whole
  have hprefix : (sentName s).length ≤ (s.takeWhile fun ch => !isNewline ch).length :=
    (List.rdropWhile_prefix _ _).length_le
  constructor
  · intro hsame
    rw [hsame] at hprefix
    have hcut : (s.takeWhile fun ch => !isNewline ch) = s :=
      (List.takeWhile_prefix _).eq_of_length_le hprefix
    rw [sentName, hcut, trimLine, List.rdropWhile_eq_self_iff] at hsame
    refine ⟨?_, ?_⟩
    · intro ch hch
      simpa using List.takeWhile_eq_self_iff.mp hcut ch hch
    · intro hlast
      obtain ⟨rest, rfl⟩ := List.getLast?_eq_some_iff.mp hlast
      exact hsame (by simp) (by simp)
  · rintro ⟨hnewline, hblank⟩
    have hcut : (s.takeWhile fun ch => !isNewline ch) = s := by
      rw [List.takeWhile_eq_self_iff]
      simpa using hnewline
    rw [sentName, hcut, trimLine, List.rdropWhile_eq_self_iff]
    intro hne hlast
    simp only [decide_eq_true_eq] at hlast
    rcases hlast with hcr | hspace
    · exact hnewline _ (List.getLast_mem hne) (by rw [hcr]; rfl)
    · exact hblank (by rw [List.getLast?_eq_some_getLast hne, hspace])

/-! ### The commands -/

/-- The saved profile of that name is gone and no other, or there is none and the list is as it
was. -/
inductive DelHits (cfg : Config) (s : CStr) (cfg' : Config) : Prop
  | deleted {i : Nat} {p : WifiProfile} (hp : cfg.profiles.entries[i]? = some p)
      (hname : p.ssid = s) (h : cfg'.profiles.entries = cfg.profiles.entries.eraseIdx i)
  | unsaved (hname : s ∉ savedNames cfg) (h : cfg'.profiles.entries = cfg.profiles.entries)

/-- The profile of exactly that name is selected, and none is created if it was saved. -/
structure JoinHits (cfg : Config) (s : CStr) (cfg' : Config) : Prop where
  selected : configActiveSsid cfg' = s
  kept : s ∈ savedNames cfg → cfg'.profiles = cfg.profiles

/-- Taking out different entries leaves different lists. -/
theorem getElem_eq_of_eraseIdx {α : Type*} [BEq α] [LawfulBEq α] {l : List α} {i j : Nat}
    (hi : i < l.length) (hj : j < l.length) (h : l.eraseIdx i = l.eraseIdx j) : l[i] = l[j] := by
  have hperm : (l[i] :: l.eraseIdx i).Perm (l[j] :: l.eraseIdx i) :=
    (List.getElem_cons_eraseIdx_perm hi).trans (h ▸ (List.getElem_cons_eraseIdx_perm hj).symm)
  -- count the first of the two elements on both sides
  have hcount := hperm.count_eq l[i]
  rw [List.count_cons_self, List.count_cons] at hcount
  split_ifs at hcount with hsame
  · exact (beq_iff_eq.mp hsame).symm
  · exact absurd hcount (Nat.succ_ne_self _)

theorem eraseIdx_ne_self {α : Type*} {l : List α} {i : Nat} (hi : i < l.length) :
    l.eraseIdx i ≠ l := by
  intro h
  have hlen := List.length_eraseIdx_of_lt hi
  rw [h] at hlen
  omega

theorem JoinEdit.activeSsid {cfg cfg' : Config} {name : CStr} (hjoin : JoinEdit cfg name cfg')
    (hfits : NamesFit cfg) : configActiveSsid cfg' = storedName name := by
  cases hjoin with
  | @found p hfind =>
    obtain ⟨hlt, hsame, -⟩ := List.findIdx?_eq_some_iff_getElem.mp hfind
    have hmem : cfg.profiles.entries[p].ssid ∈ savedNames cfg :=
      List.mem_map_of_mem (List.getElem_mem hlt)
    rw [configActiveSsid, activeProfile, List.getElem?_eq_getElem hlt]
    exact storedName_of_strncmpEq (hfits _ hmem) hsame
  | added unsaved hadd =>
    obtain ⟨kept, hentries, rfl, -⟩ := configAddProfile_entries hadd
    -- the new profile is the last one and is selected
    rw [configActiveSsid, activeProfile, hentries, List.getElem?_concat_length]
    rfl

theorem mem_savedNames_of_active {cfg : Config} {s : CStr} (h : configActiveSsid cfg = s)
    (hne : s ≠ []) : s ∈ savedNames cfg := by
  unfold configActiveSsid activeProfile at h
  cases hget : cfg.profiles.entries[cfg.active]? with
  | none =>
    rw [hget] at h
    exact absurd h.symm hne
  | some p =>
    rw [hget] at h
    exact h ▸ List.mem_map_of_mem (List.mem_of_getElem? hget)

/-- A name that reaches the right network by either command: nothing cuts it short on the way, and
it is not a number in the list of another network. -/
structure Addressable (cfg : Config) (s : CStr) : Prop where
  newline : ∀ ch ∈ s, ¬isNewline ch
  blank : s.getLast? ≠ some 32
  index : ∀ i ∈ parseIndex s cfg.profiles.entries.length,
    (cfg.profiles.entries[i]?).map (·.ssid) = some s

/-- The profile an argument of `del` means. -/
def delTarget (cfg : Config) (args : CStr) : Option Nat :=
  (parseIndex args cfg.profiles.entries.length).or (configFindProfile cfg args)

/-- What a line with a name behind `del` and one with it behind `join` make of the configuration. -/
structure NamedEffect (cfg : Config) (s : CStr) (del join : Config) : Prop where
  noDel : sentName s = [] → del = cfg
  noJoin : sentName s = [] → join = cfg
  del : sentName s ≠ [] → del.profiles.entries =
    (delTarget cfg (sentName s)).elim cfg.profiles.entries cfg.profiles.entries.eraseIdx
  join : sentName s ≠ [] → JoinEdit cfg (sentName s) join

section Named

variable {cfg del join : Config} {s : CStr}

/-- Both commands found the network, so the name arrived whole. -/
theorem NamedEffect.sent (h : NamedEffect cfg s del join) (hfits : NamesFit cfg) (hne : s ≠ [])
    (hlen : s.length < configSsidMax) (hdel : DelHits cfg s del) (hjoin : JoinHits cfg s join) :
    sentName s = s := by
  by_cases hsent : sentName s = []
  · -- nothing was done, but a selected network is saved and should be gone
    exfalso
    have hselected := hjoin.selected
    rw [h.noJoin hsent] at hselected
    have hsaved := mem_savedNames_of_active hselected hne
    cases hdel with
    | @deleted i p hp hname hentries =>
      rw [h.noDel hsent] at hentries
      exact eraseIdx_ne_self (List.getElem?_eq_some_iff.mp hp).1 hentries.symm
    | unsaved hname => exact hname hsaved
  · have hactive := (h.join hsent).activeSsid hfits
    have hshort : (sentName s).length ≤ s.length :=
      (List.rdropWhile_prefix _ _).length_le.trans (List.takeWhile_prefix _).length_le
    rw [storedName_of_lt (hshort.trans_lt hlen)] at hactive
    exact hactive.symm.trans hjoin.selected

/-- And if it is a number in the list, that is the place of the network. -/
theorem NamedEffect.index (h : NamedEffect cfg s del join) (hne : s ≠ []) (hsent : sentName s = s)
    (hdel : DelHits cfg s del) :
    ∀ i ∈ parseIndex s cfg.profiles.entries.length,
      (cfg.profiles.entries[i]?).map (·.ssid) = some s := by
  intro i hi
  have hlt := parseIndex_lt hi
  have hgone := h.del (hsent.trans_ne hne)
  rw [hsent, delTarget, hi, Option.some_or, Option.elim_some] at hgone
  cases hdel with
  | @deleted j p hp hname hentries =>
    obtain ⟨hj, hpj⟩ := List.getElem?_eq_some_iff.mp hp
    have hsame := getElem_eq_of_eraseIdx hlt hj (hgone.symm.trans hentries)
    rw [List.getElem?_eq_getElem hlt, hsame, hpj, Option.map_some, hname]
  | unsaved hname hentries => exact absurd (hgone.symm.trans hentries) (eraseIdx_ne_self hlt)

theorem Addressable.sent (h : Addressable cfg s) : sentName s = s :=
  sentName_eq_iff.mpr ⟨h.newline, h.blank⟩

theorem Addressable.delHits (haddr : Addressable cfg s) (h : NamedEffect cfg s del join)
    (hfits : NamesFit cfg) (hne : s ≠ []) (hlen : s.length < configSsidMax) :
    DelHits cfg s del := by
  have hgone := h.del (haddr.sent.trans_ne hne)
  rw [haddr.sent, delTarget] at hgone
  -- the number wins over the name
  cases hindex : parseIndex s cfg.profiles.entries.length with
  | some i =>
    rw [hindex, Option.some_or, Option.elim_some] at hgone
    obtain ⟨p, hp, hname⟩ := Option.map_eq_some_iff.mp (haddr.index i hindex)
    exact .deleted hp hname hgone
  | none =>
    rw [hindex, Option.none_or] at hgone
    cases hfind : configFindProfile cfg s with
    | none =>
      rw [hfind, Option.elim_none] at hgone
      exact .unsaved (configFindProfile_none hlen hfind) hgone
    | some i =>
      rw [hfind, Option.elim_some] at hgone
      obtain ⟨hlt, hsame, -⟩ := List.findIdx?_eq_some_iff_getElem.mp hfind
      have hmem : cfg.profiles.entries[i].ssid ∈ savedNames cfg :=
        List.mem_map_of_mem (List.getElem_mem hlt)
      exact .deleted (List.getElem?_eq_getElem hlt)
        ((strncmpEq_iff (hfits _ hmem) hlen).mp hsame) hgone

theorem Addressable.joinHits (haddr : Addressable cfg s) (h : NamedEffect cfg s del join)
    (hfits : NamesFit cfg) (hne : s ≠ []) (hlen : s.length < configSsidMax) :
    JoinHits cfg s join := by
  have hjoin := h.join (haddr.sent.trans_ne hne)
  rw [haddr.sent] at hjoin
  refine ⟨?_, ?_⟩
  · rw [hjoin.activeSsid hfits, storedName_of_lt hlen]
  · intro hsaved
    cases hjoin with
    | found => rfl
    | added unsaved => exact absurd hsaved (configFindProfile_none hlen unsaved)

end Named

namespace Control

/-- Commands of the main menu that take nothing behind the word. -/
def bareWords : List String :=
  ["LIST", "GENKEY", "PUBKEY", "BOOTSEL", "REBOOT", "SCAN", "SAVE", "RESTORE"]

/-- A word that needs something behind it and has nothing there is not a command. -/
theorem handleMain_bare {board : Board} {c : Control} {cmd : CStr} (word : String)
    (hword : isWord cmd word)
    (hne : ∀ w ∈ bareWords, (ascii word).map tolower ≠ (ascii w).map tolower) :
    (c.handleMain board cmd none).cfg = c.cfg := by
  have hother := isWord_of_forall_ne bareWords hword hne
  simp only [bareWords, List.forall_mem_cons] at hother
  simp [handleMain, hother]

theorem handleMain_del (board : Board) (c : Control) {cmd : CStr} (args : CStr)
    (hdel : isWord cmd "DEL") : c.handleMain board cmd (some args) = c.mainDel args := by
  have hother := isWord_of_forall_ne ["SET", "LIST", "JOIN", "USE"] hdel (by decide +kernel)
  simp only [List.forall_mem_cons] at hother
  simp [handleMain, hother, hdel]

theorem mainDel_entries (c : Control) (args : CStr) :
    (c.mainDel args).cfg.profiles.entries =
      (delTarget c.cfg args).elim c.cfg.profiles.entries c.cfg.profiles.entries.eraseIdx := by
  have htarget : (parseIndex args c.profileCount).or (configFindProfile c.cfg args) =
      delTarget c.cfg args := rfl
  rw [mainDel, htarget]
  cases delTarget c.cfg args with
  | none => rfl
  | some i =>
    obtain ⟨hcfg, -⟩ := wifiConnApply_keepsConfig
      ({ c with cfg := configDelProfile c.cfg i }.say "[*] deleted (save to persist)\n")
    change (Control.wifiConnApply _).cfg.profiles.entries = _
    rw [hcfg]
    exact configDelProfile_entries c.cfg i

/-- A line of the portal with a name behind its word, as the main menu gets it. -/
theorem handleLine_named {board : Board} {c : Control} {word s : CStr} (hword : CommandWord word)
    (hne : word ≠ []) (hmode : c.proto.mode ≠ .scan) (hnul : 0 ∉ s) :
    c.handleLine board (portalLine (word ++ 32 :: s)) =
      c.handleMain board word (if sentName s = [] then none else some (sentName s)) := by
  have hblank : (32 :: s.takeWhile fun ch => !isNewline ch) =
      [32] ++ s.takeWhile fun ch => !isNewline ch := rfl
  have hline : trimLine (portalLine (word ++ 32 :: s)) =
      if sentName s = [] then word else word ++ 32 :: sentName s := by
    rw [portalLine_word hword hnul, trimLine_append, trimLine_word hword, hblank, trimLine_append]
    -- the blank behind the word goes with the name if nothing of it is left
    change (if (if sentName s = [] then trimLine [32] else [32] ++ sentName s) = [] then word
      else word ++ if sentName s = [] then trimLine [32] else [32] ++ sentName s) = _
    split_ifs with hnone hnil hnil
    · rfl
    · exact absurd rfl hnil
    · cases hnil
    · rfl
  unfold handleLine
  dsimp only
  rw [hline]
  by_cases hnone : sentName s = []
  · rw [if_pos hnone, if_pos hnone, if_neg hne, if_neg hmode, splitLine_bare hword]
  · rw [if_neg hnone, if_neg hnone, if_neg (List.append_ne_nil_of_left_ne_nil hne _),
      if_neg hmode, splitLine_word hword]

section Named

variable {board : Board} {c : Control} {s : CStr}

theorem del_entries (hmode : c.proto.mode ≠ .scan) (hnul : 0 ∉ s) (hsent : sentName s ≠ []) :
    (c.handleLine board (portalLine (ascii "del " ++ s))).cfg.profiles.entries =
      (delTarget c.cfg (sentName s)).elim c.cfg.profiles.entries
        c.cfg.profiles.entries.eraseIdx := by
  have hbody : ascii "del " ++ s = ascii "del" ++ 32 :: s := rfl
  rw [hbody, handleLine_named (by decide +kernel) (by decide) hmode hnul, if_neg hsent,
    handleMain_del board c _ (by decide +kernel), mainDel_entries]

theorem join_edit (hmode : c.proto.mode ≠ .scan) (hnul : 0 ∉ s) (hsent : sentName s ≠ []) :
    JoinEdit c.cfg (sentName s) (c.handleLine board (portalLine (ascii "join " ++ s))).cfg := by
  have hbody : ascii "join " ++ s = ascii "join" ++ 32 :: s := rfl
  rw [hbody, handleLine_named (by decide +kernel) (by decide) hmode hnul, if_neg hsent,
    handleMain_join board c _ (by decide +kernel)]
  exact (joinSsid_config c (sentName s) none).1

/-- Without anything of the name neither command is one. -/
theorem named_none (hmode : c.proto.mode ≠ .scan) (hnul : 0 ∉ s) (hsent : sentName s = []) :
    (c.handleLine board (portalLine (ascii "del " ++ s))).cfg = c.cfg ∧
      (c.handleLine board (portalLine (ascii "join " ++ s))).cfg = c.cfg := by
  have hdel : ascii "del " ++ s = ascii "del" ++ 32 :: s := rfl
  have hjoin : ascii "join " ++ s = ascii "join" ++ 32 :: s := rfl
  refine ⟨?_, ?_⟩
  · rw [hdel, handleLine_named (by decide +kernel) (by decide) hmode hnul, if_pos hsent]
    exact handleMain_bare "DEL" (by decide +kernel) (by decide +kernel)
  · rw [hjoin, handleLine_named (by decide +kernel) (by decide) hmode hnul, if_pos hsent]
    exact handleMain_bare "JOIN" (by decide +kernel) (by decide +kernel)

theorem namedEffect {d : Control} (hcfg : d.cfg = c.cfg) (hmode : c.proto.mode ≠ .scan)
    (hmode' : d.proto.mode ≠ .scan) (hnul : 0 ∉ s) :
    NamedEffect c.cfg s (c.handleLine board (portalLine (ascii "del " ++ s))).cfg
      (d.handleLine board (portalLine (ascii "join " ++ s))).cfg where
  noDel hsent := (named_none hmode hnul hsent).1
  noJoin hsent := ((named_none hmode' hnul hsent).2).trans hcfg
  del hsent := del_entries hmode hnul hsent
  join hsent := hcfg ▸ join_edit hmode' hnul hsent

end Named

/-- In every main-menu state of every run, `del` and `join` with a name behind them delete and
select the network of that name exactly if it is addressable. -/
theorem named_commands_iff {board : Board} {c : Control}
    (h : Reach (StartsFrom board NamesFit) (fun _ _ => True) (step board) c)
    (hmode : c.proto.mode = .main) (hrun : ¬c.halted) {s : CStr} (hne : s ≠ [])
    (hlen : s.length < configSsidMax) (hnul : 0 ∉ s) (env env' : Env) :
    DelHits c.cfg s (step board c (.portal env (ascii "del " ++ s))).cfg ∧
        JoinHits c.cfg s (step board c (.portal env' (ascii "join " ++ s))).cfg ↔
      Addressable c.cfg s := by
  have hadmitted : Reach (StartsFrom board NamesFit) (LinesAdmitted board fun _ _ => True)
      (step board) c := h.mono (fun _ hs => hs) fun _ _ _ _ _ => trivial
  have hfits := ((namesFit_invariant board).reached hadmitted).cfg
  have hmain : c.proto.mode ≠ .scan := by
    rw [hmode]
    exact Mode.noConfusion
  have heffect : NamedEffect c.cfg s (step board c (.portal env (ascii "del " ++ s))).cfg
      (step board c (.portal env' (ascii "join " ++ s))).cfg := by
    unfold step
    rw [if_neg hrun, if_neg hrun]
    exact namedEffect (c := { c with env := env }) (d := { c with env := env' }) rfl hmain hmain
      hnul
  constructor
  · -- if both commands hit, the name arrived whole and was not read as another number
    rintro ⟨hdel, hjoin⟩
    have hsent := heffect.sent hfits hne hlen hdel hjoin
    obtain ⟨hnewline, hblank⟩ := sentName_eq_iff.mp hsent
    exact ⟨hnewline, hblank, heffect.index hne hsent hdel⟩
  · intro haddr
    exact ⟨haddr.delHits heffect hfits hne hlen, haddr.joinHits heffect hfits hne hlen⟩

/-- Two networks, the second one named like a place in the list. -/
def homeAndOne : Control := afterLines none ["join home", "join 1"]

theorem homeAndOne_reached :
    Reach (StartsFrom plainBoard NamesFit) (fun _ _ => True) (step plainBoard) homeAndOne := by
  have hstart : StartsFrom plainBoard NamesFit (boot plainBoard none {}) := ⟨none, {}, nofun, rfl⟩
  exact Reach.foldl (.start hstart) ⟨trivial, trivial, trivial⟩

theorem named_commands_home :
    DelHits homeAndOne.cfg (ascii "home")
        (step plainBoard homeAndOne (.portal {} (ascii "del " ++ ascii "home"))).cfg ∧
      JoinHits homeAndOne.cfg (ascii "home")
        (step plainBoard homeAndOne (.portal {} (ascii "join " ++ ascii "home"))).cfg :=
  (named_commands_iff homeAndOne_reached (by decide +kernel) (by decide +kernel) (by decide)
    (by decide) (by decide) {} {}).mpr
      ⟨by decide +kernel, by decide +kernel, by decide +kernel⟩

/-- The line for network `1` forgets `home` instead. -/
theorem named_commands_one :
    ¬DelHits homeAndOne.cfg (ascii "1")
      (step plainBoard homeAndOne (.portal {} (ascii "del 1"))).cfg := by
  have hnames : savedNames homeAndOne.cfg = [ascii "home", ascii "1"] := by decide +kernel
  intro h
  cases h with
  | @deleted i p hp hname hentries =>
    have hi : (savedNames homeAndOne.cfg)[i]? = some (ascii "1") := by
      rw [savedNames, List.getElem?_map, hp, Option.map_some, hname]
    rw [hnames] at hi
    -- the only profile of that name is the second, but the first is gone
    obtain rfl : i = 1 := by
      rcases i with - | - | i
      · exact absurd hi (by decide)
      · rfl
      · cases hi
    exact absurd hentries (by decide +kernel)
  | unsaved hname => exact hname (by rw [hnames]; decide)

end Control

end Molewire
