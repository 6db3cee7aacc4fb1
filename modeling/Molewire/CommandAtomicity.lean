/-
# Commands are all or nothing

A line that is answered with an error has changed nothing: not the
configuration, not the mark of unsaved credentials, not the menu, and nothing
was applied. Every handler refuses before it stores, and what may still fail
after a first change, adding a profile to a full list, never does.
-/

import Molewire.LineEffects
import Molewire.ProfileEdits

namespace Molewire

open ByteBuffer

/-- An `ERR` answer, or the failure of `genkey`. -/
def Reply.isErr : Reply → Bool
  | .text s => s.toList.take 4 == "ERR ".toList || s == "[!] key generation failed\n"
  | _ => false

/-- One of the apply callbacks. -/
def Call.isApply : Call → Bool
  | .apply | .applyWg _ | .applyAp _ => true
  | _ => false

namespace Control

/-- `d` is `c` as far as commands are concerned, and no apply callback was called. -/
structure Untouched (c d : Control) : Prop where
  cfg : d.cfg = c.cfg
  creds : d.conn.credsUnsaved = c.conn.credsUnsaved
  mode : d.proto.mode = c.proto.mode
  calls : ∃ l, d.calls = c.calls ++ l ∧ ∀ k ∈ l, k.isApply = false

/-- Nothing printed since `c` is an error. -/
def Clean (c d : Control) : Prop := ∃ l, d.out = c.out ++ l ∧ ∀ r ∈ l, r.isErr = false

/-- No error was printed, or nothing was touched. -/
def AllOrNothing (c d : Control) : Prop := Clean c d ∨ Untouched c d

theorem Clean.refl (c : Control) : Clean c c :=
  ⟨[], (List.append_nil _).symm, List.forall_mem_nil _⟩

theorem Clean.of_out {c d : Control} (h : d.out = c.out) : Clean c d :=
  ⟨[], h.trans (List.append_nil _).symm, nofun⟩

theorem Clean.trans {c d e : Control} (h : Clean c d) (h' : Clean d e) : Clean c e := by
  obtain ⟨l, hout, hclean⟩ := h
  obtain ⟨l', hout', hclean'⟩ := h'
  refine ⟨l ++ l', by rw [hout', hout, List.append_assoc], ?_⟩
  intro r hr
  exact (List.mem_append.mp hr).elim (hclean r) (hclean' r)

theorem Clean.reply {c d : Control} (h : Clean c d) {r : Reply} (hr : r.isErr = false) :
    Clean c (d.reply r) :=
  h.trans ⟨[r], rfl, fun _ hx => List.mem_singleton.mp hx ▸ hr⟩

theorem Clean.wifiConnApply {c d : Control} (h : Clean c d) : Clean c d.wifiConnApply := by
  obtain ⟨_, _, _, _, happly⟩ := wifiConnApply_managerOnly d
  exact h.trans (.of_out (by rw [happly]))

theorem Untouched.refl (c : Control) : Untouched c c :=
  ⟨rfl, rfl, rfl, [], (List.append_nil _).symm, List.forall_mem_nil _⟩

theorem Untouched.say (c : Control) (s : String) : Untouched c (c.say s) :=
  ⟨rfl, rfl, rfl, [], (List.append_nil _).symm, List.forall_mem_nil _⟩

/-! ### Joining -/

theorem joinProfile_clean {c d : Control} (h : Clean c d) (p : Nat) (isOpen : Bool) :
    Clean c (d.joinProfile p isOpen) := by
  have hactive : Clean c { d with cfg.active := p } := h.trans (.of_out rfl)
  unfold joinProfile
  dsimp only
  split_ifs
  · exact (hactive.reply (by decide)).wifiConnApply
  · exact (hactive.reply (by decide)).wifiConnApply
  · exact hactive.reply (by decide)

/-- The error of a join is never printed. -/
theorem joinSsid_clean {c d : Control} (h : Clean c d) (ssid : CStr) (openHint : Option Bool) :
    Clean c (d.joinSsid ssid openHint) := by
  unfold joinSsid
  dsimp only
  split
  case h_1 => exact joinProfile_clean h _ _
  case h_2 =>
    -- the branch that answers with an error is dead: adding a profile never fails
    obtain ⟨p, cfg, hadd⟩ := configAddProfile_isSome d.cfg ssid
    have hstaged : Clean c { d with cfg := cfg }.markCredsUnsaved := h.trans (.of_out rfl)
    simp only [hadd]
    exact joinProfile_clean hstaged _ _

/-! ### The main menu -/

/-- A `set` that is applied prints no error. -/
theorem applySet_clean {c d : Control} (h : Clean c d) (k : SetResult) :
    Clean c (applySet (k, d)) := by
  cases k with
  | err => exact h
  | wifi => exact ((h.reply (by decide)).wifiConnApply).reply rfl
  | other => exact (h.reply (by decide)).reply rfl
  | wg => exact ((h.reply (by decide)).trans (.of_out rfl)).reply rfl
  | ap => exact ((h.reply (by decide)).trans (.of_out rfl)).reply rfl

theorem setSsid_clean (c : Control) (val : CStr) : Clean c (c.setSsid val).2 := by
  unfold setSsid
  split_ifs
  · exact .of_out rfl
  · -- adding a profile never fails here either
    obtain ⟨p, cfg, hadd⟩ := configAddProfile_isSome c.cfg val
    simp only [hadd]
    exact .of_out rfl

/-- Every `set` refuses before it stores anything, or stores and is applied. -/
theorem SetCase.atomic {c : Control} {args : CStr} {r : SetResult × Control}
    (h : SetCase c args r) : AllOrNothing c (applySet r) := by
  cases h with
  | err s => exact .inr (.say c s)
  | ssid => exact .inl (applySet_clean (setSsid_clean c _) _)
  | pass val =>
    unfold setPass
    split_ifs
    · exact .inr (.say c _)
    · exact .inl (applySet_clean (.of_out rfl) _)
  | country val => exact .inl (applySet_clean (.of_out rfl) _)
  | debug on => exact .inl (applySet_clean (.of_out rfl) _)
  | wg => exact .inl (applySet_clean (.of_out rfl) _)
  | ap => exact .inl (applySet_clean (.of_out rfl) _)

theorem mainUse_atomic (c : Control) (args : CStr) : AllOrNothing c (c.mainUse args) := by
  unfold mainUse
  split
  case h_1 => exact .inr (.say c _)
  case h_2 i _ =>
    have hselected : Clean c { c with cfg.active := i } := .of_out rfl
    exact .inl ((hselected.reply (by decide)).wifiConnApply.reply rfl)

theorem mainDel_atomic (c : Control) (args : CStr) : AllOrNothing c (c.mainDel args) := by
  unfold mainDel
  split
  case h_1 => exact .inr (.say c _)
  case h_2 i _ =>
    have hdeleted : Clean c { c with cfg := configDelProfile c.cfg i } := .of_out rfl
    exact .inl ((hdeleted.reply (by decide)).wifiConnApply.reply rfl)

theorem mainPcap_atomic (c : Control) (args : CStr) : AllOrNothing c (c.mainPcap args) := by
  have hcall (k : Call) : Clean c (c.call k) := .of_out rfl
  unfold mainPcap
  split_ifs
  · exact .inl ((hcall _).reply (by decide))
  · exact .inl ((hcall _).reply (by decide))
  · exact .inl ((hcall _).reply (by decide))
  · exact .inr (.say c _)

/-- A key that cannot be generated leaves the old one in place; only the draw is spent. -/
theorem mainGenkey_atomic (board : Board) (c : Control) (args : Option CStr) :
    AllOrNothing c (c.mainGenkey board args) := by
  unfold mainGenkey wgKeypairGenerate
  dsimp only
  split_ifs
  · exact .inr (.say c _)
  · cases board.publicKey (clampKey (wireguardRandomBytes (c.env.random.headD []) 32)) with
    | none => exact .inr ⟨rfl, rfl, rfl, [], (List.append_nil _).symm, List.forall_mem_nil _⟩
    | some pub =>
      -- what is printed of a new key, its text among it
      refine .inl ⟨[.text "[*] keypair generated on-device; the private key never leaves it\n",
        .text "    public key: ", .key (base64Encode pub),
        .text "\n    give this to the WireGuard admin, then `save`\n", .dump], ?_, ?_⟩
      · simp only [Option.map_some, say, reply, applyWg, call, dump, List.append_assoc,
          List.cons_append, List.nil_append]
      · simp only [List.forall_mem_cons]
        exact ⟨by decide, by decide, rfl, by decide, rfl, nofun⟩

theorem mainPubkey_atomic (board : Board) (c : Control) :
    AllOrNothing c (c.mainPubkey board) := by
  unfold mainPubkey
  split
  case h_1 => exact .inl (((Clean.refl c).reply rfl).reply (by decide))
  case h_2 => exact .inr (.say c _)

theorem startScan_clean (c : Control) : Clean c c.startScan := by
  have hstart : Clean c c.wifiScanStart.2 := by
    obtain ⟨_, _, _, hscan, -⟩ := wifiScanStart_scanOnly c
    exact .of_out (by rw [hscan])
  -- a scan that cannot start is told by a notice, which is no error
  by_cases hs : c.scanStarts
  · rw [startScan_of_starts hs]
    have hmode : Clean c { c.wifiScanStart.2 with
      proto := { mode := .scan, scanRounds := scanPasses } } := hstart.trans (.of_out rfl)
    exact hmode.reply (by decide)
  · rw [startScan_of_refused (Bool.not_eq_true _ ▸ hs)]
    exact hstart.reply (by decide)

theorem mainSave_clean (c : Control) : Clean c c.mainSave := by
  unfold mainSave configSave
  dsimp only
  -- a failed save is told by a notice too
  by_cases h : c.env.flashes.head? = some true
  · simp only [h, if_true]
    have hsaved : Clean c ({ c with env.flashes := c.env.flashes.tail, flash := some c.cfg } :
        Control).noteSaved := .of_out rfl
    exact (hsaved.reply (by decide)).reply rfl
  · simp only [h, if_false]
    have hkept : Clean c { c with env.flashes := c.env.flashes.tail } := .of_out rfl
    exact (hkept.reply (by decide)).reply rfl

theorem mainRestore_clean (board : Board) (c : Control) : Clean c (c.mainRestore board) := by
  have hloaded : Clean c (c.configLoad board).noteSaved := .of_out rfl
  have hshown := (hloaded.reply (r := .text "[*] restored saved settings\n") (by decide))
  exact (hshown.wifiConnApply.trans (.of_out rfl)).reply rfl

theorem restart_clean (c : Control) (toBootloader : Bool) : Clean c (c.restart toBootloader) := by
  cases toBootloader
  · exact ((Clean.refl c).reply (r := .text "[*] rebooting...\n") (by decide)).trans (.of_out rfl)
  · exact ((Clean.refl c).reply (r := .text "[*] rebooting to UF2 bootloader...\n")
      (by decide)).trans (.of_out rfl)

theorem handleMain_atomic (board : Board) (c : Control) (cmd : CStr) (args : Option CStr) :
    AllOrNothing c (c.handleMain board cmd args) := by
  have hcase := handleMain_case board c cmd args
  generalize c.handleMain board cmd args = d at hcase ⊢
  cases hcase with
  | set => exact (cmdSet_case board c _).atomic
  | list => exact .inl ((Clean.refl c).reply rfl)
  | join => exact .inl ((joinSsid_clean (.refl c) _ _).reply rfl)
  | use a => exact mainUse_atomic c a
  | del a => exact mainDel_atomic c a
  | pcap a => exact mainPcap_atomic c a
  | genkey => exact mainGenkey_atomic board c args
  | pubkey => exact mainPubkey_atomic board c
  | restart toBootloader => exact .inl (restart_clean c toBootloader)
  | scan => exact .inl (startScan_clean c)
  | save => exact .inl (mainSave_clean c)
  | restore => exact .inl (mainRestore_clean board c)
  | unknown s => exact .inr (.say c s)

/-! ### The scan submenu -/

theorem scanLive_clean (c : Control) : Clean c c.scanLive := by
  have hstart : Clean c c.wifiLeave.wifiScanStart.2 := by
    obtain ⟨_, _, _, hscan, -⟩ := wifiScanStart_scanOnly c.wifiLeave
    exact .of_out (by rw [hscan]; rfl)
  unfold scanLive
  split
  case h_1 heq =>
    rw [heq] at hstart
    exact (hstart.trans (.of_out rfl)).reply (by decide)
  case h_2 heq =>
    rw [heq] at hstart
    exact hstart.reply (by decide)

/-- The menu is left before the join, whose only error cannot happen. -/
theorem scanJoin_atomic (c : Control) (args : CStr) : AllOrNothing c (c.scanJoin args) := by
  unfold scanJoin
  split
  case h_1 => exact .inr (.say c _)
  case h_2 i _ =>
    have hmain : Clean c { c with proto.mode := .main } := .of_out rfl
    exact .inl ((joinSsid_clean hmain _ _).reply rfl)

theorem handleScan_atomic (c : Control) (cmd : CStr) (args : Option CStr) :
    AllOrNothing c (c.handleScan cmd args) := by
  have hcase := handleScan_case c cmd args
  generalize c.handleScan cmd args = d at hcase ⊢
  cases hcase with
  | back =>
    have hmain : Clean c { c with proto.mode := .main } := .of_out rfl
    exact .inl (hmain.reply rfl)
  | scan => exact .inl (startScan_clean c)
  | live => exact .inl (scanLive_clean c)
  | join => exact scanJoin_atomic c _
  | unknown s => exact .inr (.say c s)

/-! ### Lines -/

theorem handleLine_atomic (board : Board) (c : Control) (line : CStr) :
    AllOrNothing c (c.handleLine board line) := by
  have hcase := handleLine_case board c line
  generalize c.handleLine board line = d at hcase ⊢
  cases hcase with
  | listScan => exact .inl ((Clean.refl c).reply rfl)
  | dump => exact .inl ((Clean.refl c).reply rfl)
  | scan => exact handleScan_atomic c _ _
  | main => exact handleMain_atomic board c _ _

/-- In either menu, whatever came before: a line that was answered with an error touched nothing. -/
theorem refused_line_untouched {board : Board} {c : Control} {line : CStr} {l : List Reply}
    {r : Reply} (hout : (c.handleLine board line).out = c.out ++ l) (hr : r ∈ l)
    (herr : r.isErr) : Untouched c (c.handleLine board line) := by
  rcases handleLine_atomic board c line with ⟨l', hout', hclean⟩ | h
  · -- what a line prints is determined, so the error is among the clean output
    obtain rfl : l = l' := List.append_cancel_left (hout.symm.trans hout')
    rw [hclean r hr] at herr
    cases herr
  · exact h

/-- A port out of range behind a name that would fit. -/
theorem refused_line_untouched_endpoint :
    Untouched (boot plainBoard none {})
      ((boot plainBoard none {}).handleLine plainBoard
        (ascii "set endpoint vpn.example 99999")) := by
  have hout : ((boot plainBoard none {}).handleLine plainBoard
      (ascii "set endpoint vpn.example 99999")).out = (boot plainBoard none {}).out ++
        [.text "ERR bad endpoint (name too long or port not 1-65535)\n"] := by decide +kernel
  exact refused_line_untouched hout (List.mem_singleton_self _) (by decide)

end Control

end Molewire
