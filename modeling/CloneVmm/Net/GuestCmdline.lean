import CloneVmm.Control.Daemon
import CloneVmm.Lib.Text
import CloneVmm.Net.GuestIp

namespace CloneVmm.Net

open CloneVmm.Lib CloneVmm.Lib.Text CloneVmm.Control.Daemon

abbrev Cmdline := List Char

def decimal (n : Nat) : List Char := Nat.toDigits 10 n

def dotted (a b c d : Nat) : List Char :=
  List.flatten [decimal a, ['.'], decimal b, ['.'], decimal c, ['.'], decimal d]

def Ipv4.render (ip : Ipv4) : List Char := dotted ip.a.toNat ip.b.toNat ip.c.toNat ip.d.toNat

structure RootfsConfig where
  readonly : Bool
  overlay : String
  fstype : String

def rootfsCmdlineParams (config : RootfsConfig) : List Cmdline :=
  List.flatten
    [[if config.readonly then "clone.rootfs=ro".toList else "clone.rootfs=rw".toList],
      if config.overlay ≠ "none" then ["clone.overlay=".toList ++ config.overlay.toList] else [],
      if config.fstype ≠ "auto" then ["clone.fstype=".toList ++ config.fstype.toList] else []]

def pushParams (cmdline : Cmdline) (params : List Cmdline) : Cmdline :=
  params.foldl (fun cmdline param => cmdline ++ ' ' :: param) cmdline

def rootfsConfig (overlay : Option String) : RootfsConfig :=
  let rawOverlay := overlay.getD "none"
  let mode :=
    if rawOverlay = "tmpfs" ∨ rawOverlay = "none" ∨ rawOverlay = "auto" then
      if rawOverlay = "auto" then "tmpfs" else rawOverlay
    else "block"
  ⟨mode ≠ "none", mode, "auto"⟩

structure VmConfig where
  cmdline : Cmdline
  tapDevice : Option String
  guestIp : Option Ipv4

def pushRootfs (args : CreateVm) (cmdline : Cmdline) : Cmdline :=
  if args.rootfs.isSome then pushParams cmdline (rootfsCmdlineParams (rootfsConfig args.overlay)) else cmdline

def patchOverlay (args : CreateVm) (guestIp : Option Ipv4) (cmdline : Cmdline) : Cmdline :=
  if args.rootfs.isSome ∧ args.overlay = some "auto" ∧ guestIp.isSome then
    replace "clone.overlay=tmpfs".toList "clone.overlay=block".toList cmdline
  else cmdline

def runConfig (args : CreateVm) (cmdline : Cmdline) (network : Option (String × Ipv4)) : VmConfig :=
  let network := if args.net then network else none
  let guestIp := network.map Prod.snd
  ⟨patchOverlay args guestIp (pushRootfs args cmdline), if args.net then network.map Prod.fst else args.tap, guestIp⟩

def pushAgentPort (cmdline : Cmdline) : Cmdline :=
  if "clone.agent_port=".toList <:+: cmdline then cmdline else cmdline ++ " clone.agent_port=9999".toList

def pushNetwork (config : VmConfig) (cmdline : Cmdline) : Cmdline :=
  if config.tapDevice.isSome ∧ ¬ "clone.net_ip=".toList <:+: cmdline then
    match config.guestIp with
    | some ip =>
      List.flatten [cmdline, " clone.net_ip=".toList, ip.render,
        " clone.net_gw=172.30.0.1 clone.net_mask=255.255.0.0".toList]
    | none => cmdline
  else cmdline

def bootCmdline (config : VmConfig) (virtioCmdlineParams : List Cmdline) (sharedDirMountpoint : Option Cmdline) :
    Cmdline :=
  let cmdline := pushNetwork config (pushAgentPort config.cmdline)
  pushParams (pushParams cmdline virtioCmdlineParams) sharedDirMountpoint.toList

def childNetwork (host : Host) (pid : UInt32) (succeeds : Bool) : Option (String × Ipv4) :=
  if succeeds then some ((autoSetupNetwork host pid).1, (autoSetupNetwork host pid).2.1) else none

def parseParam (cmdline : Cmdline) (key : List Char) : Option (List Char) :=
  (splitWhitespace cmdline).findSome? (stripPrefix (key ++ ['=']))

def netIpKey : List Char := "clone.net_ip=".toList

def AddressAgrees (config : VmConfig) (cmdline : Cmdline) : Prop :=
  ∃ ip : Ipv4, ip.InSubnet ∧ parseParam cmdline "clone.net_ip".toList = some ip.render ∧
    ∀ reserved, config.guestIp = some reserved → ip = reserved

theorem isDigit_range {c : Char} (h : c.isDigit = true) : 48 ≤ c.toNat ∧ c.toNat ≤ 57 := by
  simp only [Char.isDigit, Bool.and_eq_true, decide_eq_true_eq] at h
  exact ⟨h.1, h.2⟩

theorem dotted_chars {a b c d : Nat} {x : Char} (h : x ∈ dotted a b c d) : x.isDigit = true ∨ x = '.' := by
  have hdecimal (n : Nat) (hx : x ∈ decimal n) : x.isDigit = true :=
    Nat.isDigit_of_mem_toDigits (by decide) (by decide) hx
  simp only [dotted, List.flatten_cons, List.flatten_nil, List.mem_append, List.mem_singleton, List.append_nil] at h
  rcases h with h | h | h | h | h | h | h
  · exact .inl (hdecimal a h)
  · exact .inr h
  · exact .inl (hdecimal b h)
  · exact .inr h
  · exact .inl (hdecimal c h)
  · exact .inr h
  · exact .inl (hdecimal d h)

theorem isWhitespace_of_isDigit {c : Char} (h : c.isDigit = true) : isWhitespace c = false := by
  obtain ⟨hlow, hhigh⟩ := isDigit_range h
  simp only [isWhitespace, Bool.or_eq_false_iff, Bool.and_eq_false_iff, decide_eq_false_iff_not, beq_eq_false_iff_ne]
  omega

theorem decimal_inj {m n : Nat} : decimal m = decimal n ↔ m = n := by
  constructor
  · intro h
    have hvalue := congrArg (fun digits => Nat.ofDigitChars 10 digits 0) h
    simpa only [decimal, Nat.ofDigitChars_toDigits (b := 10) (by decide) (by decide)] using hvalue
  · rintro rfl
    rfl

theorem dot_notMem_decimal (n : Nat) : '.' ∉ decimal n := by
  intro h
  have hdigit : Char.isDigit '.' = true := Nat.isDigit_of_mem_toDigits (by decide) (by decide) h
  cases hdigit

theorem dotted_inj {a b c d a' b' c' d' : Nat} (h : dotted a b c d = dotted a' b' c' d') :
    a = a' ∧ b = b' ∧ c = c' ∧ d = d' := by
  have hsplit {m m' : Nat} {r r' : List Char} (h : decimal m ++ '.' :: r = decimal m' ++ '.' :: r') :
      m = m' ∧ r = r' := by
    obtain ⟨hm, hr⟩ := append_cons_inj (dot_notMem_decimal m) (dot_notMem_decimal m') h
    exact ⟨decimal_inj.mp hm, hr⟩
  simp only [dotted, List.flatten_cons, List.flatten_nil, List.append_nil, List.cons_append, List.nil_append] at h
  obtain ⟨ha, h⟩ := hsplit h
  obtain ⟨hb, h⟩ := hsplit h
  obtain ⟨hc, h⟩ := hsplit h
  exact ⟨ha, hb, hc, decimal_inj.mp h⟩

def Carries (ip : List Char) (cmdline : Cmdline) : Prop :=
  ∃ u v, cmdline = u ++ ' ' :: ((netIpKey ++ ip) ++ ' ' :: v) ∧ ¬ netIpKey <:+: u

namespace Carries

variable {ip : List Char} {cmdline : Cmdline}

theorem append (h : Carries ip cmdline) (rest : Cmdline) : Carries ip (cmdline ++ rest) := by
  obtain ⟨u, v, rfl, hu⟩ := h
  exact ⟨u, v ++ rest, by simp, hu⟩

theorem pushParams (h : Carries ip cmdline) (params : List Cmdline) : Carries ip (Net.pushParams cmdline params) := by
  induction params generalizing cmdline with
  | nil => exact h
  | cons param params ih => exact ih (h.append (' ' :: param))

theorem parseParam (h : Carries ip cmdline) (hip : ∀ c ∈ ip, isWhitespace c = false) :
    Net.parseParam cmdline "clone.net_ip".toList = some ip := by
  obtain ⟨u, v, rfl, hu⟩ := h
  have hkey : "clone.net_ip".toList ++ ['='] = netIpKey := by decide
  have hall : netIpKey.all (fun c => !isWhitespace c) = true := by decide
  have hword : splitWhitespace (netIpKey ++ ip) = [netIpKey ++ ip] := by
    apply splitWhitespace_word
    · exact List.append_ne_nil_of_left_ne_nil (by decide) ip
    · refine List.forall_mem_append.mpr ⟨fun c hc => ?_, hip⟩
      exact Bool.not_inj (List.all_eq_true.mp hall c hc)
  have hnone : (splitWhitespace u).findSome? (stripPrefix netIpKey) = none := by
    rw [List.findSome?_eq_none_iff]
    intro w hw
    exact stripPrefix_eq_none fun hstart => hu (hstart.isInfix.trans (infix_of_mem_splitWhitespace hw))
  rw [Net.parseParam, hkey, splitWhitespace_append, splitWhitespace_append, hword, List.findSome?_append, hnone]
  simp [stripPrefix_append]

theorem replace (h : Carries ip cmdline) (hip : 'v' ∉ ip) :
    Carries ip (Text.replace "clone.overlay=tmpfs".toList "clone.overlay=block".toList cmdline) := by
  obtain ⟨u, v, rfl, hu⟩ := h
  have hspace : ' ' ∉ "clone.overlay=tmpfs".toList := by simp
  have hne : "clone.overlay=tmpfs".toList ≠ [] := by simp
  have hv : 'v' ∈ "clone.overlay=tmpfs".toList := by simp
  have hkey : 'v' ∉ netIpKey ++ ip := fun h => (List.mem_append.mp h).elim (by decide) hip
  have hapart : Apart netIpKey "clone.overlay=block".toList := ⟨by decide, by decide⟩
  rw [Text.replace, replaceFrom_append hspace hne u _ (Nat.zero_le _),
    replaceFrom_append hspace hne _ v (Nat.zero_le _), replaceFrom_of_notMem hv hkey]
  exact ⟨_, _, rfl, fun h => hu (infix_of_replaceFrom hapart h)⟩

end Carries

section Agreement

variable {args : CreateVm} {cid : UInt64}

theorem hostPart_toNat (h : 3 ≤ cid) : (2 + (cid - 3)).toNat = cid.toNat - 1 := by
  have hlt := cid.toNat_lt
  have hle : 3 ≤ cid.toNat := UInt64.le_iff_toNat_le.mp h
  rw [UInt64.toNat_add, UInt64.toNat_sub_of_le _ _ h]
  simp only [UInt64.reduceToNat]
  omega

theorem carries_effectiveCmdline (hnet : args.net = true) (hcid : 3 ≤ cid)
    (huser : ¬ "clone.net_ip".toList <:+: args.cmdline.toList) :
    Carries (dotted 172 30 ((cid.toNat - 1) / 256) ((cid.toNat - 1) % 256)) (effectiveCmdline args cid).toList := by
  refine ⟨args.cmdline.toList ++ ' ' :: "clone.agent_port=9999".toList,
    "clone.net_gw=172.30.0.1 clone.net_mask=16".toList, ?_, ?_⟩
  · have hhost := hostPart_toNat hcid
    have hport : " clone.agent_port=9999".toList = ' ' :: "clone.agent_port=9999".toList := by simp
    have hkey : " clone.net_ip=".toList = ' ' :: netIpKey := by decide
    have hsubnet : "172.30.".toList = List.flatten [decimal 172, ['.'], decimal 30, ['.']] := by decide
    have hdot : ".".toList = ['.'] := by simp
    have hrest : " clone.net_gw=172.30.0.1 clone.net_mask=16".toList =
        ' ' :: "clone.net_gw=172.30.0.1 clone.net_mask=16".toList := by simp
    have hdecimal (n : Nat) : (toString n).toList = decimal n := Nat.toList_repr
    have hstring (s : String) : toString s = s := rfl
    simp only [effectiveCmdline, hnet, if_true, String.toList_append, hstring, hport, hkey, hsubnet, hdot, hrest,
      hdecimal, UInt64.toNat_div, UInt64.toNat_mod, hhost, dotted, List.flatten_cons, List.flatten_nil,
      List.append_nil, List.append_assoc, List.cons_append, List.nil_append]
    rfl
  · rw [infix_append_cons_iff (by decide)]
    rintro (h | h)
    · exact huser (List.IsInfix.trans (by decide) h)
    · exact absurd h (by decide)

theorem Carries.patchOverlay {ip : List Char} {cmdline : Cmdline} (h : Carries ip cmdline) (hip : 'v' ∉ ip)
    (args : CreateVm) (guestIp : Option Ipv4) : Carries ip (Net.patchOverlay args guestIp cmdline) := by
  unfold Net.patchOverlay
  split
  · exact h.replace hip
  · exact h

theorem Carries.runConfig {ip : List Char} {cmdline : Cmdline} (h : Carries ip cmdline) (hip : 'v' ∉ ip)
    (args : CreateVm) (network : Option (String × Ipv4)) : Carries ip (Net.runConfig args cmdline network).cmdline := by
  have hrootfs : Carries ip (pushRootfs args cmdline) := by
    unfold pushRootfs
    split
    · exact h.pushParams _
    · exact h
  exact hrootfs.patchOverlay hip args _

theorem Carries.bootCmdline {ip : List Char} {config : VmConfig} (h : Carries ip config.cmdline)
    (virtioCmdlineParams : List Cmdline) (sharedDirMountpoint : Option Cmdline) :
    Carries ip (Net.bootCmdline config virtioCmdlineParams sharedDirMountpoint) := by
  have hport : Carries ip (pushAgentPort config.cmdline) := by
    unfold pushAgentPort
    split
    · exact h
    · exact h.append _
  have hnetwork : Carries ip (pushNetwork config (pushAgentPort config.cmdline)) := by
    unfold pushNetwork
    split
    · split
      · exact hport.append _
      · exact hport
    · exact hport
  exact (hnetwork.pushParams _).pushParams _

def guestConfig (args : CreateVm) (cid : UInt64) (network : Option (String × Ipv4)) : VmConfig :=
  runConfig args (effectiveCmdline args cid).toList network

theorem guest_parseParam (hnet : args.net = true) (hcid : 3 ≤ cid)
    (huser : ¬ "clone.net_ip".toList <:+: args.cmdline.toList) (network : Option (String × Ipv4))
    (virtioCmdlineParams : List Cmdline) (sharedDirMountpoint : Option Cmdline) :
    parseParam (bootCmdline (guestConfig args cid network) virtioCmdlineParams sharedDirMountpoint)
        "clone.net_ip".toList =
      some (dotted 172 30 ((cid.toNat - 1) / 256) ((cid.toNat - 1) % 256)) := by
  have hv : 'v' ∉ dotted 172 30 ((cid.toNat - 1) / 256) ((cid.toNat - 1) % 256) := by
    intro h
    rcases dotted_chars h with h | h
    · cases h
    · cases h
  have hwhite : ∀ c ∈ dotted 172 30 ((cid.toNat - 1) / 256) ((cid.toNat - 1) % 256), isWhitespace c = false := by
    intro c hc
    rcases dotted_chars hc with h | rfl
    · exact isWhitespace_of_isDigit h
    · decide
  exact (((carries_effectiveCmdline hnet hcid huser).runConfig hv args network).bootCmdline _ _).parseParam hwhite

theorem render_guestIpOf (n : Nat) : (guestIpOf n).render = dotted 172 30 (n / 256 % 256) (n % 256) := by
  simp only [Ipv4.render, guestIpOf, UInt8.toNat_ofNat', UInt8.reduceToNat]
  congr 1
  omega

theorem render_inj {ip ip' : Ipv4} (h : ip.render = ip'.render) : ip = ip' := by
  obtain ⟨ha, hb, hc, hd⟩ := dotted_inj h
  cases ip
  cases ip'
  simp only [Ipv4.mk.injEq, ← UInt8.toNat_inj]
  exact ⟨ha, hb, hc, hd⟩

theorem dotted_eq_render_iff {n : Nat} {ip : Ipv4} :
    dotted 172 30 (n / 256) (n % 256) = ip.render ↔ n < 65536 ∧ ip = guestIpOf n := by
  constructor
  · intro h
    have hc := (dotted_inj h).2.2.1
    have hlt := ip.c.toNat_lt
    have hn : n < 65536 := by omega
    refine ⟨hn, render_inj ?_⟩
    rw [render_guestIpOf, Nat.mod_eq_of_lt (show n / 256 < 256 by omega), h]
  · rintro ⟨hn, rfl⟩
    rw [render_guestIpOf, Nat.mod_eq_of_lt (show n / 256 < 256 by omega)]

theorem guestConfig_guestIp (hnet : args.net = true) (network : Option (String × Ipv4)) :
    (guestConfig args cid network).guestIp = network.map Prod.snd := by
  simp only [guestConfig, runConfig, hnet, if_true]

theorem childNetwork_guestIp (host : Host) (pid : UInt32) (succeeds : Bool) :
    (childNetwork host pid succeeds).map Prod.snd =
      if succeeds then some (guestIpOf (allocateGuestIp host)) else none := by
  cases succeeds <;> rfl

theorem guestAddress_agrees_iff (hnet : args.net = true) (hcid : 3 ≤ cid)
    (huser : ¬ "clone.net_ip".toList <:+: args.cmdline.toList) (host : Host) (pid : UInt32) (succeeds : Bool)
    (virtioCmdlineParams : List Cmdline) (sharedDirMountpoint : Option Cmdline) :
    AddressAgrees (guestConfig args cid (childNetwork host pid succeeds))
        (bootCmdline (guestConfig args cid (childNetwork host pid succeeds)) virtioCmdlineParams sharedDirMountpoint) ↔
      cid.toNat ≤ 65536 ∧ (succeeds = true → cid.toNat - 1 = allocateGuestIp host % 65536) := by
  simp only [AddressAgrees, guest_parseParam hnet hcid huser, Option.some_inj, dotted_eq_render_iff,
    guestConfig_guestIp hnet, childNetwork_guestIp]
  have hcid' : 3 ≤ cid.toNat := UInt64.le_iff_toNat_le.mp hcid
  constructor
  · rintro ⟨ip, -, ⟨hlt, rfl⟩, hreserved⟩
    refine ⟨by omega, fun hsucceeds => ?_⟩
    subst hsucceeds
    have hip := hreserved _ rfl
    rw [guestIpOf_inj, Nat.mod_eq_of_lt hlt] at hip
    exact hip
  · rintro ⟨hlt, hhost⟩
    refine ⟨guestIpOf (cid.toNat - 1), ⟨rfl, rfl⟩, ⟨by omega, rfl⟩, ?_⟩
    intro reserved hreserved
    cases succeeds with
    | false => cases hreserved
    | true =>
      cases hreserved
      rw [guestIpOf_inj, Nat.mod_eq_of_lt (show cid.toNat - 1 < 65536 by omega)]
      exact hhost rfl

end Agreement

def demoArgs : CreateVm :=
  ⟨"/boot/vmlinux", none, "console=ttyS0", 512, 1, none, none, none, none, true, none, false, none, none⟩

theorem guestAddress_agrees_first :
    AddressAgrees (guestConfig demoArgs 3 (childNetwork Host.empty 4711 true))
      (bootCmdline (guestConfig demoArgs 3 (childNetwork Host.empty 4711 true)) [] none) := by
  have hfirst : allocateGuestIp Host.empty = 2 := by decide
  refine (guestAddress_agrees_iff rfl (by decide) (by decide) Host.empty 4711 true [] none).mpr ⟨by decide, ?_⟩
  intro _
  rw [hfirst]
  rfl

def recreated : List Control.Daemon.Action :=
  [.request (.createVm demoArgs) ⟨fun _ => .ok 4711, true⟩, .request (.destroyVm "vm-0001") ⟨fun _ => .ok 4711, true⟩]

theorem guestAddress_agrees_fails :
    ∃ w host, w = recreated.foldl World.next (.fresh "/tmp/clone-daemon-state.json") ∧
      Steps (fun s a t => next s a = some t) Host.empty [.setUp 4711, .tearDown 4711] host ∧
      ¬ AddressAgrees (guestConfig demoArgs w.server.nextCid (childNetwork host 4712 true))
        (bootCmdline (guestConfig demoArgs w.server.nextCid (childNetwork host 4712 true)) [] none) := by
  have hrun : Steps.trace next (fun _ _ => True) Host.empty [.setUp 4711, .tearDown 4711] = some Host.empty := by
    decide
  refine ⟨_, Host.empty, rfl, (Steps.of_trace hrun).mono fun _ _ _ h => h.1, fun hagrees => ?_⟩
  have hcid : (recreated.foldl World.next (.fresh "/tmp/clone-daemon-state.json")).server.nextCid = 4 := by
    decide
  obtain ⟨ip, -, hvalue, hreserved⟩ := hagrees
  rw [hcid, guest_parseParam rfl (by decide) (by decide), Option.some_inj,
    dotted_eq_render_iff] at hvalue
  rw [guestConfig_guestIp rfl, childNetwork_guestIp] at hreserved
  have hip := hreserved _ rfl
  rw [hvalue.2] at hip
  exact absurd hip (by decide)

end CloneVmm.Net
