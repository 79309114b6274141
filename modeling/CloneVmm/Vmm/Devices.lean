import Mathlib.Data.List.Basic

/-!
`vmm/mod.rs` and `migration/mod.rs`: the device lists that the boot paths and the migration receiver
build, and `restore_all_from_json`, which matches saved states with them by position.
-/

namespace CloneVmm.Vmm

/-- What a device is there for. Its type follows; `block` and `overlay` are both block devices. -/
inductive Role
  | balloon
  | vsock
  | block
  | overlay
  | fs
  | net
  deriving DecidableEq

structure VmConfig where
  blockDevice : Option String
  overlayDevice : Option String
  sharedDir : Option String
  tapDevice : Option String
  tapFd : Option Nat

structure TemplatePaths where
  blockDevice : Option String
  overlayPath : Option String

structure DeviceHost where
  vsock : Bool
  opensBlock : String → Bool
  isDir : String → Bool
  createsTap : String → Bool

namespace DeviceHost

variable (host : DeviceHost)

def vsockDevices : List Role := if host.vsock then [.vsock] else []

/-- A block device; one that cannot be opened is skipped with a warning. -/
def blockDevices (role : Role) : Option String → List Role
  | some path => if host.opensBlock path then [role] else []
  | none => []

def sharedPath (spec : String) : String := String.ofList (spec.toList.takeWhile (· ≠ ':'))

def fsDevices : Option String → List Role
  | some spec => if host.isDir (sharedPath spec) then [.fs] else []
  | none => []

def hasTap (config : VmConfig) (tapName : String) : Bool := config.tapFd.isSome || host.createsTap tapName

def netDevices (config : VmConfig) : List Role :=
  match config.tapDevice with
  | some tapName => if host.hasTap config tapName then [.net] else []
  | none => []

end DeviceHost

inductive BuildPath
  | boot
  | forkBoot
  | restoreBoot
  | runReceiver

structure Build where
  path : BuildPath
  host : DeviceHost
  config : VmConfig
  template : TemplatePaths

def Build.devices : Build → List Role
  | ⟨.boot, host, config, _⟩ =>
    [.balloon] ++ host.vsockDevices ++ host.blockDevices .block config.blockDevice
      ++ host.blockDevices .overlay config.overlayDevice ++ host.fsDevices config.sharedDir ++ host.netDevices config
  | ⟨.forkBoot, host, config, template⟩ =>
    [.balloon] ++ host.vsockDevices ++ host.blockDevices .block (config.blockDevice <|> template.blockDevice)
      ++ host.fsDevices config.sharedDir ++ host.netDevices config
  | ⟨.restoreBoot, host, config, template⟩ =>
    [.balloon] ++ host.vsockDevices ++ host.blockDevices .block (config.blockDevice <|> template.blockDevice)
      ++ host.blockDevices .overlay (config.overlayDevice <|> template.overlayPath)
      ++ host.fsDevices config.sharedDir ++ host.netDevices config
  | ⟨.runReceiver, host, _, _⟩ => [.balloon] ++ host.vsockDevices

structure RestoredTransport (σ : Type) where
  role : Role
  state : Option σ

def restoreAllFromJson {σ : Type} (fromJson : List UInt8 → Except String σ) :
    List (RestoredTransport σ) → List (List UInt8) → Except String (List (RestoredTransport σ))
  | [], _ => .ok []
  | transports, [] => .ok transports
  | transport :: transports, json :: jsonStates =>
    if json = [] then do
      return transport :: (← restoreAllFromJson fromJson transports jsonStates)
    else do
      let state ← fromJson json
      return { transport with state := some state } :: (← restoreAllFromJson fromJson transports jsonStates)

def Role.order : List Role := [.balloon, .vsock, .block, .overlay, .fs, .net]

def Build.registers (b : Build) : Role → Bool
  | .balloon => true
  | .vsock => b.host.vsock
  | .block =>
    match b.path with
    | .boot => b.config.blockDevice.any b.host.opensBlock
    | .forkBoot | .restoreBoot => (b.config.blockDevice <|> b.template.blockDevice).any b.host.opensBlock
    | .runReceiver => false
  | .overlay =>
    match b.path with
    | .boot => b.config.overlayDevice.any b.host.opensBlock
    | .restoreBoot => (b.config.overlayDevice <|> b.template.overlayPath).any b.host.opensBlock
    | .forkBoot | .runReceiver => false
  | .fs =>
    match b.path with
    | .runReceiver => false
    | _ => b.config.sharedDir.any fun spec => b.host.isDir (DeviceHost.sharedPath spec)
  | .net =>
    match b.path with
    | .runReceiver => false
    | _ => b.config.tapDevice.any (b.host.hasTap b.config)

theorem filter_cons_eq_append {p : Role → Bool} (role : Role) (rest : List Role) :
    (role :: rest).filter p = (bif p role then [role] else []) ++ rest.filter p := by
  cases hp : p role <;> simp [hp]

theorem vsockDevices_eq (host : DeviceHost) : host.vsockDevices = bif host.vsock then [.vsock] else [] := by
  unfold DeviceHost.vsockDevices
  cases host.vsock <;> rfl

theorem blockDevices_eq (host : DeviceHost) (role : Role) (path : Option String) :
    host.blockDevices role path = bif path.any host.opensBlock then [role] else [] := by
  cases path with
  | none => rfl
  | some path => simp only [DeviceHost.blockDevices, Option.any_some, Bool.cond_eq_ite]

theorem fsDevices_eq (host : DeviceHost) (spec : Option String) :
    host.fsDevices spec = bif spec.any fun spec => host.isDir (DeviceHost.sharedPath spec) then [.fs] else [] := by
  cases spec with
  | none => rfl
  | some spec => simp only [DeviceHost.fsDevices, Option.any_some, Bool.cond_eq_ite]

theorem netDevices_eq (host : DeviceHost) (config : VmConfig) :
    host.netDevices config = bif config.tapDevice.any (host.hasTap config) then [.net] else [] := by
  unfold DeviceHost.netDevices
  cases config.tapDevice with
  | none => rfl
  | some tapName => simp only [Option.any_some, Bool.cond_eq_ite]

theorem Build.devices_eq_filter (b : Build) : b.devices = Role.order.filter b.registers := by
  obtain ⟨path, host, config, template⟩ := b
  unfold Role.order
  simp only [filter_cons_eq_append, List.filter_nil, List.append_nil]
  cases path with
  | boot | forkBoot | restoreBoot | runReceiver =>
    simp only [devices, registers, vsockDevices_eq, blockDevices_eq, fsDevices_eq, netDevices_eq, cond_true, cond_false,
      List.append_assoc, List.nil_append, List.append_nil]

theorem filter_prefix_filter_iff {α : Type} {p q : α → Bool} {l : List α} (h : l.Nodup) :
    l.filter p <+: l.filter q ↔ (∀ a ∈ l, p a → q a) ∧ l.Pairwise fun b a => p a → q b → p b := by
  induction l with
  | nil => simp
  | cons x l ih =>
    rw [List.nodup_cons] at h
    have ih := ih h.2
    have hnot : ∀ r : α → Bool, ∀ ys, ¬ x :: ys <+: l.filter r := by
      intro r ys hpre
      exact h.1 (List.mem_of_mem_filter (hpre.subset List.mem_cons_self))
    rw [List.pairwise_cons, List.forall_mem_cons]
    cases hp : p x with
    | true =>
      rw [List.filter_cons_of_pos hp]
      cases hq : q x with
      | true =>
        rw [List.filter_cons_of_pos hq, List.cons_prefix_cons, ih]
        simp
      | false =>
        rw [List.filter_cons_of_neg (by simp [hq])]
        simp [hnot]
    | false =>
      rw [List.filter_cons_of_neg (by simp [hp])]
      cases hq : q x with
      | true =>
        -- the other list has `x` where this one has nothing, so this one has to be empty
        rw [List.filter_cons_of_pos hq]
        constructor
        · intro hpre
          have hnil : l.filter p = [] := by
            cases hfilter : l.filter p with
            | nil => rfl
            | cons y ys =>
              rw [hfilter, List.cons_prefix_cons] at hpre
              have hy : y ∈ l.filter p := by
                rw [hfilter]
                exact List.mem_cons_self
              rw [hpre.1] at hy
              exact absurd (List.mem_of_mem_filter hy) h.1
          rw [List.filter_eq_nil_iff] at hnil
          refine ⟨⟨by simp, fun a ha hpa => absurd hpa (hnil a ha)⟩, fun a ha hpa => absurd hpa (hnil a ha), ?_⟩
          apply List.Pairwise.imp_of_mem _ (List.pairwise_of_forall (R := fun _ _ => True) (fun _ _ => trivial))
          intro b a hb ha _ hpa
          exact absurd hpa (hnil a ha)
        · rintro ⟨-, hbefore, -⟩
          have hnil : l.filter p = [] := by
            rw [List.filter_eq_nil_iff]
            intro a ha hpa
            exact absurd (hbefore a ha hpa rfl) (by simp)
          rw [hnil]
          exact List.nil_prefix
      | false =>
        rw [List.filter_cons_of_neg (by simp [hq]), ih]
        simp

section Restore

variable {σ : Type} {toJson : σ → List UInt8} {fromJson : List UInt8 → Except String σ}

def Build.freshTransports (b : Build) : List (RestoredTransport σ) := b.devices.map fun role => ⟨role, none⟩

def RestoredInPlace (saved : List Role) (states : List σ) (after : List (RestoredTransport σ)) : Prop :=
  ∀ (i : Nat) (role : Role) (state : σ), saved[i]? = some role → states[i]? = some state →
    after[i]? = some ⟨role, some state⟩

theorem restoreAllFromJson_eq (hjson : ∀ state, fromJson (toJson state) = .ok state)
    (hne : ∀ state, toJson state ≠ []) (transports : List (RestoredTransport σ)) (states : List σ) :
    ∃ after, restoreAllFromJson fromJson transports (states.map toJson) = .ok after ∧
      ∀ (i : Nat) (state : σ), states[i]? = some state →
        after[i]? = (transports[i]?).map fun t => { t with state := some state } := by
  induction transports generalizing states with
  | nil => exact ⟨[], by rw [restoreAllFromJson], fun _ _ _ => rfl⟩
  | cons t transports ih =>
    cases states with
    | nil => exact ⟨t :: transports, rfl, fun i state h => by cases h⟩
    | cons state states =>
      obtain ⟨after, hafter, hget⟩ := ih states
      refine ⟨{ t with state := some state } :: after, ?_, ?_⟩
      · rw [List.map_cons, restoreAllFromJson, if_neg (hne state), hjson state, hafter]
        rfl
      · intro i state' hi
        cases i with
        | zero =>
          cases hi
          rfl
        | succ i => exact hget i state' hi

theorem inPlace_iff_starts (hjson : ∀ state, fromJson (toJson state) = .ok state) (hne : ∀ state, toJson state ≠ [])
    (saved : List Role) (new : Build) (states : List σ) (hstates : states.length = saved.length) :
    (∃ after, restoreAllFromJson fromJson new.freshTransports (states.map toJson) = .ok after ∧
        RestoredInPlace saved states after) ↔ saved <+: new.devices := by
  obtain ⟨after, hafter, hget⟩ := restoreAllFromJson_eq hjson hne new.freshTransports states
  have hfresh : ∀ i : Nat, new.freshTransports[i]? =
      (new.devices[i]?).map fun role => (⟨role, none⟩ : RestoredTransport σ) := fun i => List.getElem?_map
  rw [List.prefix_iff_getElem?]
  constructor
  · rintro ⟨after', hafter', hplace⟩ i hi
    cases hafter.symm.trans hafter'
    have hstate : states[i]? = some states[i] := List.getElem?_eq_getElem (by omega)
    have hrole := hplace i saved[i] states[i] (List.getElem?_eq_getElem hi) hstate
    rw [hget i _ hstate, hfresh] at hrole
    cases hnew : new.devices[i]? with
    | none =>
      rw [hnew] at hrole
      cases hrole
    | some role =>
      rw [hnew] at hrole
      exact congrArg (fun t : Option (RestoredTransport σ) => t.map (·.role)) hrole
  · intro hpre
    refine ⟨after, hafter, ?_⟩
    intro i role state hrole hstate
    obtain ⟨hi, rfl⟩ := List.getElem?_eq_some_iff.mp hrole
    rw [hget i state hstate, hfresh, hpre i hi]
    rfl

/-- A saved state goes back to its device when every device is registered again, with nothing in front
of it that the saved VM did not have. -/
theorem restoreAllFromJson_inPlace_iff (hjson : ∀ state, fromJson (toJson state) = .ok state)
    (hne : ∀ state, toJson state ≠ []) (source new : Build) (states : List σ)
    (hstates : states.length = source.devices.length) :
    (∃ after, restoreAllFromJson fromJson new.freshTransports (states.map toJson) = .ok after ∧
        RestoredInPlace source.devices states after) ↔
      (∀ role, source.registers role → new.registers role) ∧
        Role.order.Pairwise fun before role =>
          source.registers role → new.registers before → source.registers before := by
  have hall : ∀ role : Role, role ∈ Role.order := by
    intro role
    cases role <;> decide
  rw [inPlace_iff_starts hjson hne _ _ _ hstates, source.devices_eq_filter, new.devices_eq_filter,
    filter_prefix_filter_iff (by decide)]
  simp [hall]

end Restore

def boolToJson : Bool → List UInt8
  | true => [0x74, 0x72, 0x75, 0x65]
  | false => [0x66, 0x61, 0x6c, 0x73, 0x65]

def boolFromJson (json : List UInt8) : Except String Bool :=
  if json = boolToJson true then .ok true
  else if json = boolToJson false then .ok false
  else .error "expected a boolean"

def openHost : DeviceHost := ⟨true, fun _ => true, fun _ => true, fun _ => true⟩

theorem restoreAllFromJson_inPlace_fork :
    ∃ after, restoreAllFromJson boolFromJson
        (Build.freshTransports ⟨.forkBoot, openHost, ⟨none, none, none, some "tap1", none⟩, ⟨some "disk", none⟩⟩)
        ([true, false, false, true].map boolToJson) = .ok after ∧
      RestoredInPlace (Build.devices ⟨.boot, openHost, ⟨some "disk", none, none, some "tap0", none⟩, ⟨none, none⟩⟩)
        [true, false, false, true] after :=
  (restoreAllFromJson_inPlace_iff (by decide) (by decide) _ _ _ (by decide)).mpr
    ⟨fun role => by cases role <;> decide, by decide⟩

theorem restoreAllFromJson_inPlace_overlay :
    ¬ ∃ after, restoreAllFromJson boolFromJson
        (Build.freshTransports ⟨.forkBoot, openHost, ⟨none, none, none, some "tap1", none⟩, ⟨some "disk", some "overlay"⟩⟩)
        ([true, false, false, false, true].map boolToJson) = .ok after ∧
      RestoredInPlace
        (Build.devices ⟨.boot, openHost, ⟨some "disk", some "overlay", none, some "tap0", none⟩, ⟨none, none⟩⟩)
        [true, false, false, false, true] after := by
  rw [inPlace_iff_starts (by decide) (by decide) _ _ _ (by decide)]
  decide

end CloneVmm.Vmm
