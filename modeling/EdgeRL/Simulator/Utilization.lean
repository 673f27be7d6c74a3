import EdgeRL.Simulator.BeginTick
import EdgeRL.Simulator.Energy
import EdgeRL.Simulator.Placement

/-!
# Utilization and its windows

No server uses more CPU than it has, so the utilization over a window lies between 0 and 1, and
energy is only ever added.

## Main results

* `Engine.Accounted`: what the accounts of a state say about the window since the last tick.
* `accounted_of_reachable`: it holds while a run goes on.
* `Engine.Accounted.windowedUtilization_mem`: the utilization of a window.
-/

namespace EdgeRL

namespace Cluster

variable {K : Type} [LinearOrder K] {c : Cluster K} {s : ServerId} {t : K}

/-- A server is not busy with less than nothing. -/
theorem busyCpu_nonneg (c : Cluster K) (s : ServerId) (t : K) : 0 ≤ c.busyCpu s t :=
  List.sum_nonneg fun n hn => by
    obtain ⟨r, -, rfl⟩ := List.mem_map.1 hn
    exact effectiveCpu_nonneg s _

/-- The busy replicas are some of the hosted ones. -/
theorem busyCpu_le (c : Cluster K) (s : ServerId) (t : K) : c.busyCpu s t ≤ c.usedCpu s := by
  have hsublist : ((c.servingReplicas s).filter fun r => !(c.objs r).isIdle t).Sublist
      (c.hosted s).values := List.filter_sublist.trans List.filter_sublist
  refine (hsublist.map (c.cpuOf s)).sum_le_sum fun n hn => ?_
  obtain ⟨r, -, rfl⟩ := List.mem_map.1 hn
  exact effectiveCpu_nonneg s _

variable [Field K] [IsStrictOrderedRing K]

/-- What a server uses in an instant. -/
theorem instantaneousUtilization_mul (c : Cluster K) (s : ServerId) (t : K) :
    c.instantaneousUtilization s t * (capacityOf s : K) = (c.busyCpu s t : K) := by
  have hpos : (0 : K) < capacityOf s := Int.cast_pos.2 (capacityOf_pos s)
  rw [instantaneousUtilization, if_pos (capacityOf_pos s), div_mul_cancel₀ _ hpos.ne']

/-- The utilization of a server is not negative. -/
theorem instantaneousUtilization_nonneg (c : Cluster K) (s : ServerId) (t : K) :
    0 ≤ c.instantaneousUtilization s t := by
  have hpos : (0 : K) < capacityOf s := Int.cast_pos.2 (capacityOf_pos s)
  rw [instantaneousUtilization, if_pos (capacityOf_pos s)]
  exact div_nonneg (Int.cast_nonneg (c.busyCpu_nonneg s t)) hpos.le

/-- It is at most one when the hosted replicas fit. -/
theorem instantaneousUtilization_le_one (hused : c.usedCpu s ≤ capacityOf s) (t : K) :
    c.instantaneousUtilization s t ≤ 1 := by
  have hpos : (0 : K) < capacityOf s := Int.cast_pos.2 (capacityOf_pos s)
  rw [instantaneousUtilization, if_pos (capacityOf_pos s), div_le_one hpos]
  exact Int.cast_le.2 ((c.busyCpu_le s t).trans hused)

/-- A server does not deliver power. -/
theorem instantaneousPowerW_nonneg (c : Cluster K) (s : ServerId) (t : K) :
    0 ≤ c.instantaneousPowerW s t := by
  have hidle : (0 : K) ≤ pIdleOf s := pIdleOf_nonneg s
  have hutil := c.instantaneousUtilization_nonneg s t
  have hbusy : 0 ≤ (pMaxOf s - pIdleOf s) * c.instantaneousUtilization s t :=
    mul_nonneg (sub_nonneg.2 (pIdleOf_le_pMaxOf s)) hutil
  unfold instantaneousPowerW
  split
  · exact le_rfl
  · exact hidle
  · exact add_nonneg hidle hbusy
  · exact add_nonneg hidle hbusy

end Cluster

namespace Engine

variable {K : Type} [Field K] [LinearOrder K] {A : AlgorithmBase K} {e e' : Engine A}

/-- What the accounts of a state say about the window since the last tick. -/
structure Accounted (e : Engine A) : Prop where
  energyLastUpdate : ∀ s, e.energyLastUpdate s = e.now
  start_le : e.utilWindowStartTime ≤ e.now
  busy_ge : ∀ s, e.utilAtWindowStart s ≤ (e.cluster.servers s).cumulativeBusyCpuSeconds
  busy_le : ∀ s, (e.cluster.servers s).cumulativeBusyCpuSeconds - e.utilAtWindowStart s
    ≤ (capacityOf s : K) * (e.now - e.utilWindowStartTime)
  energyAtLastTick_le : e.energyAtLastTick ≤ e.totalEnergy

variable [IsStrictOrderedRing K]

/-- The total energy does not decrease when that of no server does. -/
theorem totalEnergy_le (h : ∀ s, (e.cluster.servers s).cumulativeEnergyJoule
    ≤ (e'.cluster.servers s).cumulativeEnergyJoule) : e.totalEnergy ≤ e'.totalEnergy :=
  List.sum_le_sum fun s _ => h s

/-- Energies only grow. -/
theorem Books.energy_le (h : Books e e') (s : ServerId) :
    (e.cluster.servers s).cumulativeEnergyJoule ≤ (e'.cluster.servers s).cumulativeEnergyJoule := by
  have hfixed : e.fixedEnergy s ≤ e'.fixedEnergy s := by
    have hboots : ((e.cluster.servers s).numBoots : K) ≤ (e'.cluster.servers s).numBoots :=
      Nat.cast_le.2 (h.numBoots_le s)
    have hpods : (e.podsCreated s : K) ≤ e'.podsCreated s :=
      Nat.cast_le.2 (podsCreated_le h.next_le h.serverId s)
    unfold fixedEnergy eBootServerJ ePodCreateJ
    linarith
  have henergy := h.energy s
  linarith

/-- Two states with the same window. -/
structure SameWindow (e e' : Engine A) : Prop where
  energyLastUpdate : e'.energyLastUpdate = e.energyLastUpdate
  start : e'.utilWindowStartTime = e.utilWindowStartTime
  utilAtWindowStart : e'.utilAtWindowStart = e.utilAtWindowStart

omit [Field K] [IsStrictOrderedRing K] in
theorem SameWindow.refl (e : Engine A) : SameWindow e e := ⟨rfl, rfl, rfl⟩

omit [Field K] [IsStrictOrderedRing K] in
theorem SameWindow.trans {e e' e'' : Engine A} (h : SameWindow e e') (h' : SameWindow e' e'') :
    SameWindow e e'' where
  energyLastUpdate := h'.energyLastUpdate.trans h.energyLastUpdate
  start := h'.start.trans h.start
  utilAtWindowStart := h'.utilAtWindowStart.trans h.utilAtWindowStart

omit [IsStrictOrderedRing K] in
/-- The snapshot of a tick is about a window that goes on until the decisions are taken. -/
theorem SameWindow.beginTick [Environment K] (e : Engine A) : SameWindow e e.beginTick.2 := by
  have hrecord : SameWindow e e.recordSnapshot := by
    unfold Engine.recordSnapshot
    dsimp only
    split <;> exact ⟨rfl, rfl, rfl⟩
  have hlook : ∀ e : Engine A, SameWindow e e.lookAtQueues := by
    intro e
    unfold Engine.lookAtQueues
    split <;> exact ⟨rfl, rfl, rfl⟩
  have hsignal : ∀ (e : Engine A) v, SameWindow e (e.updateServiceSignals v) :=
    fun _ _ => ⟨rfl, rfl, rfl⟩
  have hsignals : ∀ e : Engine A, SameWindow e (activeServices.foldl updateServiceSignals e) :=
    fun e => List.foldl_invariant (refl e) fun e' v _ h => h.trans (hsignal e' v)
  have hremember : ∀ e : Engine A, SameWindow e e.rememberEnergy := fun _ => ⟨rfl, rfl, rfl⟩
  have htrack : ∀ (e : Engine A) snapshot, SameWindow e (e.updateSustainTracking snapshot) :=
    fun _ _ => ⟨rfl, rfl, rfl⟩
  have hreset : ∀ e : Engine A, SameWindow e e.resetTickActions := fun _ => ⟨rfl, rfl, rfl⟩
  have hqueues := hrecord.trans (hlook e.recordSnapshot)
  have hbuild : SameWindow e e.recordSnapshot.buildMetricsSnapshot.2 :=
    (hqueues.trans (hsignals _)).trans (hremember _)
  unfold Engine.beginTick
  exact (hbuild.trans (htrack _ _)).trans (hreset _)

namespace Accounted

/-- Time passes. -/
theorem pop (h : e.Accounted) (hused : ∀ s, e.cluster.usedCpu s ≤ capacityOf s) {t : K}
    (hle : e.now ≤ t) (heap : EventHeap K) : ((e.setHeap heap).advanceTo t).Accounted := by
  obtain ⟨hservers, hupdate, -, heap', servers, objs, updates, heq⟩ :=
    elapsed_advanceTo h.energyLastUpdate hle heap
  generalize (e.setHeap heap).advanceTo t = e₁ at *
  have hwindow : e₁.now = t ∧ e₁.utilWindowStartTime = e.utilWindowStartTime ∧
      e₁.utilAtWindowStart = e.utilAtWindowStart ∧ e₁.energyAtLastTick = e.energyAtLastTick := by
    rw [heq]
    exact ⟨rfl, rfl, rfl, rfl⟩
  obtain ⟨hnow, hstart, hutil, henergy⟩ := hwindow
  have hdt : 0 ≤ t - e.now := sub_nonneg.2 hle
  have hbusy : ∀ s, (e₁.cluster.servers s).cumulativeBusyCpuSeconds =
      (e.cluster.servers s).cumulativeBusyCpuSeconds + (e.cluster.busyCpu s e.now : K) * (t - e.now) := by
    intro s
    rw [hservers, ← Cluster.instantaneousUtilization_mul]
    rfl
  have hbusyCpu : ∀ s, 0 ≤ (e.cluster.busyCpu s e.now : K) * (t - e.now) ∧
      (e.cluster.busyCpu s e.now : K) * (t - e.now) ≤ (capacityOf s : K) * (t - e.now) := by
    intro s
    have hle := (e.cluster.busyCpu_le s e.now).trans (hused s)
    exact ⟨mul_nonneg (Int.cast_nonneg (e.cluster.busyCpu_nonneg s e.now)) hdt,
      mul_le_mul_of_nonneg_right (Int.cast_le.2 hle) hdt⟩
  refine ⟨fun s => (hupdate s).trans hnow.symm, ?_, fun s => ?_, fun s => ?_, ?_⟩
  · rw [hstart, hnow]
    exact h.start_le.trans hle
  · rw [hutil, hbusy]
    have := h.busy_ge s
    linarith [(hbusyCpu s).1]
  · rw [hutil, hbusy, hstart, hnow]
    have := h.busy_le s
    have := (hbusyCpu s).2
    linarith
  · rw [henergy]
    refine h.energyAtLastTick_le.trans (totalEnergy_le fun s => ?_)
    rw [hservers]
    exact le_add_of_nonneg_right (mul_nonneg (e.cluster.instantaneousPowerW_nonneg s e.now) hdt)

/-- A handler that leaves the accounts alone. -/
theorem books (h : e.Accounted) (hbooks : Books e e') (hnow : e'.now = e.now) : e'.Accounted where
  energyLastUpdate s := by rw [hbooks.energyLastUpdate, hnow, h.energyLastUpdate]
  start_le := by
    rw [hbooks.utilWindowStartTime, hnow]
    exact h.start_le
  busy_ge s := by
    rw [hbooks.utilAtWindowStart, hbooks.busy]
    exact h.busy_ge s
  busy_le s := by
    rw [hbooks.utilAtWindowStart, hbooks.busy, hbooks.utilWindowStartTime, hnow]
    exact h.busy_le s
  energyAtLastTick_le := by
    rw [hbooks.energyAtLastTick]
    exact h.energyAtLastTick_le.trans (totalEnergy_le hbooks.energy_le)

/-- The utilization of a window. -/
theorem windowedUtilization_mem (h : e.Accounted) {s : ServerId}
    (hused : e.cluster.usedCpu s ≤ capacityOf s) :
    0 ≤ e.windowedUtilization s ∧ e.windowedUtilization s ≤ 1 := by
  have hpos : (0 : K) < capacityOf s := Int.cast_pos.2 (capacityOf_pos s)
  unfold windowedUtilization
  dsimp only
  split
  · next helapsed =>
    have hdt : 0 < e.now - e.utilWindowStartTime := lt_trans (by norm_num) helapsed
    have harea : 0 < (capacityOf s : K) * (e.now - e.utilWindowStartTime) := mul_pos hpos hdt
    rw [if_pos (capacityOf_pos s)]
    exact ⟨div_nonneg (sub_nonneg.2 (h.busy_ge s)) harea.le, (div_le_one harea).2 (h.busy_le s)⟩
  · exact ⟨e.cluster.instantaneousUtilization_nonneg s e.now,
      Cluster.instantaneousUtilization_le_one hused e.now⟩

variable [Environment K]

omit [IsStrictOrderedRing K] in
/-- The start of a tick remembers the total energy. -/
theorem beginTick (h : e.Accounted) : e.beginTick.2.Accounted := by
  have hservers := (SameControl.beginTick e).servers
  have hnow := (SameControl.beginTick e).now
  have henergy : e.beginTick.2.energyAtLastTick = e.beginTick.2.totalEnergy := rfl
  obtain ⟨hupdate, hstart, hutil⟩ := SameWindow.beginTick e
  refine ⟨fun s => ?_, ?_, fun s => ?_, fun s => ?_, henergy.le⟩
  · rw [hupdate, hnow, h.energyLastUpdate]
  · rw [hstart, hnow]
    exact h.start_le
  · rw [hutil, hservers]
    exact h.busy_ge s
  · rw [hutil, hservers, hstart, hnow]
    exact h.busy_le s

/-- A decision tick starts a new window. -/
theorem tick (h : e.Accounted) {externalActions : Option ExternalActions} {snapshot : Snapshot K}
    (hok : e.handleDecisionTick externalActions = .ok (snapshot, e')) : e'.Accounted := by
  obtain ⟨e₁, hdecisions, hok⟩ := Except.bind_eq_ok_iff.1 hok
  cases Except.pure_eq_ok_iff.1 hok
  have hcontrols := Controls.applyDecisions hdecisions
  have h₁ : e₁.Accounted := h.beginTick.books (.of_controls hcontrols) (Keeps.of_controls hcontrols).now
  refine ⟨h₁.energyLastUpdate, le_rfl, fun s => le_rfl, fun s => ?_, h₁.energyAtLastTick_le⟩
  show (e₁.cluster.servers s).cumulativeBusyCpuSeconds
      - (e₁.cluster.servers s).cumulativeBusyCpuSeconds ≤ (capacityOf s : K) * (e₁.now - e₁.now)
  simp

end Accounted

end Engine

end EdgeRL
