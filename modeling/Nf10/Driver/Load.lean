import Nf10.Driver.Probe
import Nf10.Lib.Ledger

/-!
# Nf10 — loading and unloading the module

`nf10_eth_driver_init` and `nf10_eth_driver_exit` as a ledger of kernel registrations. Each failure
point of the initialization has an unwind block of its own, written out by hand:

* all of those up to the netlink operations end in a `pci_unregister_driver`, long before the driver
  is registered;
* the one for `register_netdev` frees the netdev behind the last one, once, in place of the four;
* `pci_register_driver` and `enable_ghosting` have none.

So **`load_unload_no_residue`**: the ledger balances exactly in the runs in which no checked
registration fails and no unload meets a missing `/proc` entry.
-/

namespace Nf10

/-- The commands of the netlink family, in the order of `genl_all_ops`. -/
inductive GenlCmd where
  | echo
  | dmaTx
  | dmaRx
  | regRd
  | regWr
  | napiEnable
  | napiDisable
deriving DecidableEq, Repr

/-- All seven are registered, one after another. -/
def genlAllOps : List GenlCmd :=
  [.echo, .dmaTx, .dmaRx, .regRd, .regWr, .napiEnable, .napiDisable]

/-- What the module registers with the kernel. `netdev i` is the allocation, `registered i` the
registration of interface `i`. -/
inductive Registration where
  | netdev (i : Nat)
  | napi
  | registered (i : Nat)
  | genlFamily
  | genlOps (cmd : GenlCmd)
  | procEntry
  | napiEnabled
  | pciDriver
  | ghosting
deriving DecidableEq, Repr

/-- What the kernel answers to a load: `NULL` or not for allocations, error codes for the rest. -/
structure LoadCalls where
  allocNetdev : Nat → Bool
  registerNetdev : Nat → Int
  genlRegisterFamily : Int
  genlRegisterOps : GenlCmd → Int
  createProcReadEntry : Bool
  pciRegisterDriver : Int
  -- by the number of buffers asked for, in the ghost build
  kmalloc : Nat → Bool

/-- The return value of `enable_ghosting`. -/
def LoadCalls.enableGhosting (c : LoadCalls) : Int :=
  if dmaCpuBufsTried.any c.kmalloc then 0 else -1

/-- The error of a netdev that cannot be allocated. -/
def enomem : Int := -12

/-- What the module holds of the kernel, and what it gave back without holding it. -/
abbrev Registrations := Ledger Registration

namespace Registrations

/-- `genl_unregister_family` takes the operations of the family with it. -/
def genlUnregisterFamily (l : Registrations) : Registrations :=
  (l.forget fun r => r matches .genlOps _).release .genlFamily

/-- `for(i = 0; i < NUM_NETDEVS; i++)` over the registered netdevs, the NAPI structure, and the same
loop over the allocated ones. -/
def releaseNetdevs (l : Registrations) : Registrations :=
  ((l.releaseEach ((List.range numNetdevs).map .registered)).release .napi).releaseEach
    ((List.range numNetdevs).map .netdev)

end Registrations

open Registrations

/-- The tail of `nf10_eth_driver_init`, which returns errors without undoing anything. -/
def startDriver (b : Build) (c : LoadCalls) (l : Registrations) : Registrations × Int :=
  if b.ghost then
    if c.enableGhosting ≠ 0 then (l, c.enableGhosting) else (l.acquire .ghosting, 0)
  else if c.pciRegisterDriver ≠ 0 then (l, c.pciRegisterDriver)
  else (l.acquire .pciDriver, 0)

/-- `nf10_eth_driver_init`. The error paths are the source's, with what they release in the order
in which they do. -/
def nf10EthDriverInit (b : Build) (c : LoadCalls) (l : Registrations) : Registrations × Int :=
  match l.acquireEach ((List.range numNetdevs).map fun i =>
    (.netdev i, if c.allocNetdev i then 0 else enomem)) with
  | .error (l, i, err) =>
    ((l.releaseEach ((List.range i).reverse.map .netdev)).release .pciDriver, err)
  | .ok l =>
    let l := l.acquire .napi
    match l.acquireEach ((List.range numNetdevs).map fun i =>
      (.registered i, c.registerNetdev i)) with
    | .error (l, i, err) =>
      let l := (l.releaseEach ((List.range i).reverse.map .registered)).release .napi
      -- the loop `for(i = 0; i < NUM_NETDEVS; i++);` has no body, `free_netdev` comes after it
      ((l.release (.netdev numNetdevs)).release .pciDriver, err)
    | .ok l =>
      if c.genlRegisterFamily ≠ 0 then
        ((releaseNetdevs l).release .pciDriver, c.genlRegisterFamily)
      else
        let l := l.acquire .genlFamily
        match l.acquireEach (genlAllOps.map fun cmd => (.genlOps cmd, c.genlRegisterOps cmd)) with
        | .error (l, _, err) =>
          ((releaseNetdevs (genlUnregisterFamily l)).release .pciDriver, err)
        | .ok l =>
          -- "FIXME: Do we need to check for error on create_proc_read_entry?"
          let l := if c.createProcReadEntry then l.acquire .procEntry else l
          startDriver b c (l.acquire .napiEnabled)

/-- `nf10_eth_driver_exit`, which releases everything a load can have acquired, whether this load
has or not. -/
def nf10EthDriverExit (b : Build) (l : Registrations) : Registrations :=
  let l := (l.release .napiEnabled).release .procEntry
  let l := releaseNetdevs (genlUnregisterFamily l)
  l.release (if b.ghost then .ghosting else .pciDriver)

/-! ## Loads and unloads

A module is loaded and unloaded any number of times; the kernel's answers are inputs of each load. -/

/-- Whether it is loaded, and what it holds. -/
structure Module where
  loaded : Bool
  registrations : Registrations

/-- `insmod`, with what the kernel answers, or `rmmod`. -/
inductive ModuleEvent where
  | load (c : LoadCalls)
  | unload

/-- Before the first load. -/
def Module.absent : Module := ⟨false, .empty⟩

/-- A module is loaded if its initialization returns 0. It is loaded once, and unloaded only while
it is. -/
def Module.step (b : Build) (m : Module) : ModuleEvent → Module
  | .load c =>
    if m.loaded then m
    else
      let r := nf10EthDriverInit b c m.registrations
      ⟨r.2 == 0, r.1⟩
  | .unload => if m.loaded then ⟨false, nf10EthDriverExit b m.registrations⟩ else m

/-- Nothing is held while the module is not loaded, and nothing has been released that was not
held. -/
structure Module.Balanced (m : Module) : Prop where
  noResidue : m.loaded = false → m.registrations.held = []
  noneUnheld : m.registrations.unheld = []

/-- No registration that the initialization checks fails. -/
def LoadCalls.Granted (b : Build) (c : LoadCalls) : Prop :=
  (∀ i < numNetdevs, c.allocNetdev i = true) ∧ (∀ i < numNetdevs, c.registerNetdev i = 0)
    ∧ c.genlRegisterFamily = 0 ∧ (∀ cmd ∈ genlAllOps, c.genlRegisterOps cmd = 0)
    ∧ (if b.ghost then c.enableGhosting = 0 else c.pciRegisterDriver = 0)

/-- A load is granted what it checks, and an unload finds the `/proc` entry the load did not check. -/
def NoneRefused (b : Build) (m : Module) : ModuleEvent → Prop
  | .load c => m.loaded = false → c.Granted b
  | .unload => m.loaded = true → Registration.procEntry ∈ m.registrations.held

/-! ## A load that goes through

What a load that is refused nothing holds afterwards, and that the exit gives back exactly this. -/

/-- The registrations of a loaded module, latest first; `proc` says whether the `/proc` entry is
among them. -/
def loadedHeld (ghost proc : Bool) : List Registration :=
  (if ghost then .ghosting else .pciDriver) :: .napiEnabled
    :: ((if proc then [.procEntry] else []) ++ (genlAllOps.map .genlOps).reverse ++ [.genlFamily]
      ++ ((List.range numNetdevs).map .registered).reverse ++ [.napi]
      ++ ((List.range numNetdevs).map .netdev).reverse)

/-- The first loop of the initialization goes through. -/
theorem allocNetdev_all_iff (c : LoadCalls) :
    (∀ p ∈ (List.range numNetdevs).map fun i =>
      (Registration.netdev i, if c.allocNetdev i then 0 else enomem), p.2 = 0)
      ↔ ∀ i < numNetdevs, c.allocNetdev i = true := by
  simp [enomem]

theorem registerNetdev_all_iff (c : LoadCalls) :
    (∀ p ∈ (List.range numNetdevs).map fun i => (Registration.registered i, c.registerNetdev i),
      p.2 = 0) ↔ ∀ i < numNetdevs, c.registerNetdev i = 0 := by
  simp

theorem genlRegisterOps_all_iff (c : LoadCalls) :
    (∀ p ∈ genlAllOps.map fun cmd => (Registration.genlOps cmd, c.genlRegisterOps cmd), p.2 = 0)
      ↔ ∀ cmd ∈ genlAllOps, c.genlRegisterOps cmd = 0 := by
  simp

/-- A load that is granted what it checks returns zero and holds everything, with the `/proc`
entry if that came. -/
theorem init_of_granted {b : Build} {c : LoadCalls} (h : c.Granted b) :
    nf10EthDriverInit b c .empty = (⟨loadedHeld b.ghost c.createProcReadEntry, []⟩, 0) := by
  obtain ⟨halloc, hregister, hfamily, hops, hstart⟩ := h
  unfold nf10EthDriverInit
  rw [Ledger.acquireEach_of_all ((allocNetdev_all_iff c).mpr halloc)]
  dsimp only
  rw [Ledger.acquireEach_of_all ((registerNetdev_all_iff c).mpr hregister)]
  dsimp only
  rw [if_neg (not_not.mpr hfamily),
    Ledger.acquireEach_of_all ((genlRegisterOps_all_iff c).mpr hops)]
  cases hghost : b.ghost <;> cases c.createProcReadEntry <;>
    simp_all [startDriver, Ledger.acquire, Ledger.empty, loadedHeld, Function.comp_def]

/-- The exit is the mirror image of the load. -/
theorem exit_loadedHeld (b : Build) :
    nf10EthDriverExit b ⟨loadedHeld b.ghost true, []⟩ = .empty := by
  unfold nf10EthDriverExit
  cases b.ghost <;> decide

/-- Without its `/proc` entry the module is left in order but for one release too many. -/
theorem exit_loadedHeld_unheld (b : Build) :
    (nf10EthDriverExit b ⟨loadedHeld b.ghost false, []⟩).unheld = [.procEntry] := by
  unfold nf10EthDriverExit
  cases b.ghost <;> decide

/-! ## A load that fails

Every error path leaves something behind, or releases something it does not hold. It is enough to
see one of the two for each way out. -/

/-- What a failed load leaves: an error, and a ledger that does not balance. -/
def Residue (r : Registrations × Int) : Prop :=
  r.2 ≠ 0 ∧ (r.1.held ≠ [] ∨ r.1.unheld ≠ [])

/-- The last act of four unwind blocks. -/
theorem residue_of_unregister {l : Registrations} {err : Int} (herr : err ≠ 0)
    (h : .pciDriver ∉ l.held) : Residue (l.release .pciDriver, err) :=
  ⟨herr, Or.inr (Ledger.release_unheld_ne_nil h)⟩

theorem mem_of_mem_releaseNetdevs {l : Registrations} {x : Registration}
    (h : x ∈ (releaseNetdevs l).held) : x ∈ l.held :=
  Ledger.mem_of_mem_releaseEach (Ledger.mem_of_mem_release (Ledger.mem_of_mem_releaseEach h))

theorem mem_of_mem_genlUnregisterFamily {l : Registrations} {x : Registration}
    (h : x ∈ (genlUnregisterFamily l).held) : x ∈ l.held :=
  Ledger.mem_of_mem_forget (Ledger.mem_of_mem_release h)

/-- The last step returns its error with everything before it still held. -/
theorem startDriver_residue {b : Build} {c : LoadCalls} {l : Registrations} (hl : l.held ≠ [])
    (h : ¬ if b.ghost then c.enableGhosting = 0 else c.pciRegisterDriver = 0) :
    Residue (startDriver b c l) := by
  unfold startDriver
  cases hghost : b.ghost with
  | true =>
    simp only [hghost, if_true] at h ⊢
    rw [if_pos h]
    exact ⟨h, Or.inl hl⟩
  | false =>
    simp only [hghost, Bool.false_eq_true, if_false] at h ⊢
    rw [if_pos h]
    exact ⟨h, Or.inl hl⟩

/-- **Every refusal leaves a trace.** The ways out of the initialization, one after another. -/
theorem init_of_refused {b : Build} {c : LoadCalls} (h : ¬ c.Granted b) :
    Residue (nf10EthDriverInit b c .empty) := by
  unfold nf10EthDriverInit
  -- at the first failure, the ledger holds what was acquired before it, and no PCI driver
  by_cases halloc : ∀ i < numNetdevs, c.allocNetdev i = true
  case neg =>
    obtain ⟨l, i, err, heq, herr, hheld⟩ :=
      Ledger.acquireEach_of_not_all (mt (allocNetdev_all_iff c).mp halloc) Ledger.empty
    rw [heq]
    apply residue_of_unregister herr
    intro hpci
    have := hheld _ (Ledger.mem_of_mem_releaseEach hpci)
    simp [Ledger.empty] at this
  rw [Ledger.acquireEach_of_all ((allocNetdev_all_iff c).mpr halloc)]
  dsimp only
  by_cases hregister : ∀ i < numNetdevs, c.registerNetdev i = 0
  case neg =>
    obtain ⟨l, i, err, heq, herr, hheld⟩ :=
      Ledger.acquireEach_of_not_all (mt (registerNetdev_all_iff c).mp hregister) _
    rw [heq]
    apply residue_of_unregister herr
    intro hpci
    have := hheld _ (Ledger.mem_of_mem_releaseEach
      (Ledger.mem_of_mem_release (Ledger.mem_of_mem_release hpci)))
    simp [Ledger.empty, Ledger.acquire] at this
  rw [Ledger.acquireEach_of_all ((registerNetdev_all_iff c).mpr hregister)]
  dsimp only
  by_cases hfamily : c.genlRegisterFamily = 0
  case neg =>
    rw [if_pos hfamily]
    apply residue_of_unregister hfamily
    intro hpci
    have := mem_of_mem_releaseNetdevs hpci
    simp [Ledger.empty, Ledger.acquire] at this
  rw [if_neg (not_not.mpr hfamily)]
  by_cases hops : ∀ cmd ∈ genlAllOps, c.genlRegisterOps cmd = 0
  case neg =>
    obtain ⟨l, i, err, heq, herr, hheld⟩ :=
      Ledger.acquireEach_of_not_all (mt (genlRegisterOps_all_iff c).mp hops) _
    rw [heq]
    apply residue_of_unregister herr
    intro hpci
    have := hheld _ (mem_of_mem_genlUnregisterFamily (mem_of_mem_releaseNetdevs hpci))
    simp [Ledger.empty, Ledger.acquire] at this
  rw [Ledger.acquireEach_of_all ((genlRegisterOps_all_iff c).mpr hops)]
  apply startDriver_residue (List.cons_ne_nil _ _)
  intro hstart
  exact h ⟨halloc, hregister, hfamily, hops, hstart⟩

/-! ## Runs

Loads and unloads in turn stay balanced exactly as long as no load is refused and the `/proc` entry,
which nobody checks, is there. -/

/-- A module in order: absent and with an empty ledger, or loaded and holding what a load leaves. -/
inductive Module.InOrder (b : Build) : Module → Prop where
  | absent : InOrder b .absent
  | loaded (proc : Bool) : InOrder b ⟨true, ⟨loadedHeld b.ghost proc, []⟩⟩

theorem Module.InOrder.balanced {b : Build} (m : Module) (h : m.InOrder b) : m.Balanced := by
  cases h with
  | absent => exact ⟨fun _ => rfl, rfl⟩
  | loaded proc => exact ⟨fun hl => Bool.noConfusion hl, rfl⟩

theorem procEntry_mem_loadedHeld_iff (ghost proc : Bool) :
    .procEntry ∈ loadedHeld ghost proc ↔ proc = true := by
  cases ghost <;> cases proc <;> decide

/-- A step that is refused nothing keeps it in order. -/
theorem Module.InOrder.step {b : Build} (m : Module) (e : ModuleEvent) (h : m.InOrder b)
    (he : NoneRefused b m e) : (m.step b e).InOrder b := by
  cases h with
  | absent =>
    cases e with
    | load c =>
      have hinit := init_of_granted (he rfl)
      simp only [Module.step, Module.absent, Bool.false_eq_true, if_false, hinit,
        beq_self_eq_true]
      exact .loaded c.createProcReadEntry
    | unload => exact .absent
  | loaded proc =>
    cases e with
    | load c => exact .loaded proc
    | unload =>
      have hproc : proc = true := (procEntry_mem_loadedHeld_iff b.ghost proc).mp (he rfl)
      subst hproc
      simp only [Module.step, if_true, exit_loadedHeld]
      exact .absent

/-- And a step that is refused something shows in the balance. -/
theorem Module.InOrder.noneRefused {b : Build} (m : Module) (e : ModuleEvent) (h : m.InOrder b)
    (hnext : (m.step b e).Balanced) : NoneRefused b m e := by
  cases h with
  | absent =>
    cases e with
    | load c =>
      intro _
      by_contra hrefused
      obtain ⟨herr, hresidue⟩ := init_of_refused hrefused
      have hfailed : ((nf10EthDriverInit b c .empty).2 == 0) = false := by simpa using herr
      obtain ⟨hempty, hunheld⟩ := hnext
      simp only [Module.step, Module.absent, Bool.false_eq_true, if_false] at hempty hunheld
      rcases hresidue with hheld | hbad
      · exact hheld (hempty hfailed)
      · exact hbad hunheld
    | unload => exact fun hl => by cases hl
  | loaded proc =>
    cases e with
    | load c => exact fun hl => by cases hl
    | unload =>
      intro _
      cases proc with
      | true => exact (procEntry_mem_loadedHeld_iff b.ghost true).mpr rfl
      | false =>
        have hunheld := hnext.noneUnheld
        simp only [Module.step, if_true, exit_loadedHeld_unheld] at hunheld
        cases hunheld

/-- **Loads and unloads.** Over any sequence of them, nothing is held while the module is not loaded
and nothing is released that is not held, exactly if no load is refused a registration it checks and
no unload misses the `/proc` entry. -/
theorem load_unload_no_residue (b : Build) (es : List ModuleEvent) :
    (∀ k, (Runs.run (Module.step b) Module.absent (es.take k)).Balanced)
      ↔ Runs.Along (Module.step b) (NoneRefused b) Module.absent es :=
  Runs.forall_take_safe_iff_along Module.InOrder.balanced Module.InOrder.step
    Module.InOrder.noneRefused .absent es

/-- The kernel grants everything. -/
def grantedLoad : LoadCalls where
  allocNetdev _ := true
  registerNetdev _ := 0
  genlRegisterFamily := 0
  genlRegisterOps _ := 0
  createProcReadEntry := true
  pciRegisterDriver := 0
  kmalloc _ := true

/-- **Counterexample.** The third interface cannot be registered. The four netdevs stay allocated,
and what is freed and unregistered in their place is a fifth netdev and a PCI driver that are not
there. -/
theorem register_failure_leaves_netdevs :
    (Runs.run (Module.step plainBuild) Module.absent
        [.load { grantedLoad with registerNetdev := fun i => if i = 2 then -12 else 0 }]).registrations
      = ⟨[.netdev 3, .netdev 2, .netdev 1, .netdev 0], [.pciDriver, .netdev 4]⟩
    ∧ ¬ ∀ k, (Runs.run (Module.step plainBuild) Module.absent (List.take k
        [.load { grantedLoad with registerNetdev := fun i => if i = 2 then -12 else 0 }])).Balanced := by
  refine ⟨by decide, fun h => ?_⟩
  exact absurd (h 1).noneUnheld (by decide)

end Nf10
