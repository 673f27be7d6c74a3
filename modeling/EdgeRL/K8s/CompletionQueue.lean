import EdgeRL.K8s.LostRequests
import EdgeRL.Library.Mailbox

/-!
# From the pods to the dispatcher

A pod reports a finished request by appending to the list `edge:metrics:completions`, and
`drain_completion_queue` takes batches from the front of this list and records them. The pods run in
other processes, so a pod may append at any time. Popping a batch is one transaction, and a pass of
the drain loop has no await point between popping and the last record.

Requests are given up meanwhile by the reaper, so a report may come too late. A request without an
id is left out: the client sends an id with every request, and sends it to a pod once.

## Main definitions and results

* `popCompletionBatch`: the two Redis commands.
* `DeliveryState`, `delivering`: the pods, the list, the drain loop and the functions of `counting`.
* `completions_delivered`: the list delivers every stored report once and in order, and the
  dispatcher's run is one of `counting`.
* `report_of_prompt_run`: when no report is recorded more than `3 * max_age` seconds after its request
  was routed, `total_requests` counts every request once, apart from those in `_request_geo`.
-/

namespace EdgeRL

/-- An element of `edge:metrics:completions` whose request has an id. -/
structure CompletionReport (K : Type) where
  requestId : RequestId
  serviceId : ServiceId
  serverId : ServerId
  success : Bool
  responseTimeSec : K

variable {K : Type}

/-- What `process` of the pod `k` appends. -/
def processReport (k : ReplicaKey) (i : RequestId) (responseTimeSec : K) : CompletionReport K where
  requestId := i
  serviceId := k.1
  serverId := k.2
  success := true
  responseTimeSec := responseTimeSec

/-- The report as the list holds it. -/
def CompletionReport.toCompletion (c : CompletionReport K) : Completion K where
  requestId := some c.requestId
  serviceId := c.serviceId
  serverId := c.serverId
  success := c.success
  responseTimeSec := c.responseTimeSec

/-- What a command appends to the list. -/
def Command.pushed : Command K → Option (Completion K)
  | rpush completion => some completion
  | _ => none

/-- A pod appends one report for a request, after whatever it finds in Redis. -/
theorem pushed_process [Field K] [LinearOrder K] (k : ReplicaKey) (i : RequestId)
    (sentAtEpoch : Option K) (elapsed : K) :
    (process k { requestId := some i, sentAtEpoch } elapsed).Ensures Command.exec fun log _ =>
      ∃ responseTimeSec,
        log.filterMap Command.pushed = [(processReport k i responseTimeSec).toCompletion] := by
  have hdecr : (decrIfPositive k : RedisM K Unit).Ensures Command.exec fun log _ =>
      log.filterMap Command.pushed = [] := by
    refine Script.ensures_bind.2 (Script.ensures_issue.2 fun s => Script.ensures_done.2 ?_)
    split
    · exact Script.ensures_issue.2 fun s => Script.ensures_done.2 rfl
    · exact Script.ensures_done.2 rfl
  have htime : (responseTime { requestId := some i, sentAtEpoch } elapsed).Ensures Command.exec
      fun log _ => log.filterMap Command.pushed = [] := by
    cases sentAtEpoch with
    | none => exact Script.ensures_done.2 rfl
    | some sentAtEpoch => exact Script.ensures_issue.2 fun s => Script.ensures_done.2 rfl
  have hreport : (responseTime { requestId := some i, sentAtEpoch } elapsed >>= fun responseTimeSec =>
      RedisM.rpush (processReport k i responseTimeSec).toCompletion >>= fun _ =>
        RedisM.incrbyfloat k elapsed).Ensures Command.exec fun log _ =>
      ∃ responseTimeSec,
        log.filterMap Command.pushed = [(processReport k i responseTimeSec).toCompletion] := by
    refine Script.ensures_bind.2 (htime.mono fun log responseTimeSec h => ?_)
    refine Script.ensures_issue.2 fun s => Script.ensures_issue.2 fun s => Script.ensures_done.2 ?_
    refine ⟨responseTimeSec, ?_⟩
    rw [List.filterMap_append, h]
    rfl
  refine Script.ensures_bind.2 (Script.ensures_issue.2 fun s => Script.ensures_done.2 ?_)
  dsimp only
  split
  · refine Script.ensures_bind.2 (hdecr.mono fun log₁ _ h₁ => hreport.mono fun log₂ _ h₂ => ?_)
    obtain ⟨responseTimeSec, h₂⟩ := h₂
    refine ⟨responseTimeSec, ?_⟩
    rw [List.filterMap_append, List.filterMap_append, h₁, h₂]
    rfl
  · exact hreport.mono fun log _ h => h

/-- `pop_completion_batch`: the batch, and what is left in the list. -/
def popCompletionBatch (maxItems : ℕ) (queue : List (CompletionReport K)) :
    List (CompletionReport K) × List (CompletionReport K) :=
  (ListStore.lrange queue 0 (maxItems - 1), ListStore.lrange queue maxItems (-1))

/-- The number of reports that the drain loop asks for. -/
def completionBatchSize : ℕ := 500

/-- A batch is the front of the queue. -/
theorem popCompletionBatch_append (queue : List (CompletionReport K)) :
    (popCompletionBatch completionBatchSize queue).1
      ++ (popCompletionBatch completionBatchSize queue).2 = queue :=
  ListStore.lrange_append_lrange queue (by decide)

/-- A batch is as long as the queue allows. -/
theorem length_popCompletionBatch (queue : List (CompletionReport K)) :
    (popCompletionBatch completionBatchSize queue).1.length
      = min completionBatchSize queue.length := by
  rw [popCompletionBatch, ListStore.lrange_front queue (by decide), List.length_take]

namespace CountState

/-- One pass of the loop over a batch. -/
def complete [Field K] [LinearOrder K] (wallTime : RequestId → K) (s : CountState K)
    (c : CompletionReport K) : CountState K :=
  { s with
    engine := s.engine.recordExternalCompletion c.requestId c.serviceId c.success c.responseTimeSec
      (wallTime c.requestId)
    completed := c.requestId :: s.completed }

/-- The loop over a batch in `drain_completion_queue`. -/
def completeBatch [Field K] [LinearOrder K] (wallTime : RequestId → K) (s : CountState K)
    (batch : List (CompletionReport K)) : CountState K :=
  batch.foldl (complete wallTime) s

end CountState

/-- The system. -/
structure DeliveryState (K : Type) where
  dispatcher : CountState K
  /-- The list `edge:metrics:completions`, with what has passed through it. -/
  completions : Mailbox (CompletionReport K)
  /-- `_running`. -/
  running : Bool
  /-- The requests that a pod has finished. -/
  processed : List RequestId
  /-- The time at which `route_request` has routed a request. -/
  routedAt : RequestId → K

/-- A step of the system. -/
inductive DeliveryLabel (K : Type)
  /-- Any step of the dispatcher but the record of a completion. -/
  | dispatch (l : CountLabel K)
  /-- The pod `k` finishes a request; it goes on when Redis does not take the report. -/
  | process (k : ReplicaKey) (i : RequestId) (responseTimeSec : K) (stored : Bool)
  /-- A pass of `drain_completion_queue`; `wallTime` are its readings of `time.time()`. -/
  | drain (wallTime : RequestId → K)
  /-- `_lifetime_watcher` ends the run. -/
  | stop

namespace CountLabel

/-- Whether a step records a completion. -/
def isComplete : CountLabel K → Bool
  | complete _ _ _ _ _ => true
  | _ => false

/-- The times of the routed requests after a step. -/
def noteRoute (routedAt : RequestId → K) : CountLabel K → RequestId → K
  | route _ i _ _ _ times _ => Function.update routedAt i times.routedAt
  | _ => routedAt

end CountLabel

/-- Whether a batch is popped. -/
def DeliveryLabel.isDrain : DeliveryLabel K → Bool
  | drain _ => true
  | _ => false

namespace DeliveryState

/-- The batch that the drain loop pops. -/
def batch (s : DeliveryState K) : List (CompletionReport K) :=
  (popCompletionBatch completionBatchSize s.completions.waiting).1

/-- The effect of a step, if it is possible. -/
def next [Field K] [LinearOrder K] [Environment K] (s : DeliveryState K) :
    DeliveryLabel K → Option (DeliveryState K)
  | .dispatch l =>
    if l.isComplete then none
    else (s.dispatcher.next l).map fun dispatcher =>
      { s with dispatcher, routedAt := l.noteRoute s.routedAt }
  | .process k i responseTimeSec stored =>
    -- the client sends a request to its pod when it has been routed, and only then
    if i ∈ s.dispatcher.routed ∧ i ∉ s.processed then
      some { s with
        completions :=
          if stored then s.completions.send (processReport k i responseTimeSec) else s.completions
        processed := i :: s.processed }
    else none
  | .drain wallTime =>
    -- the loop looks at `_running` before it pops, so what comes later stays in the list
    if s.running then
      some { s with
        dispatcher := s.dispatcher.completeBatch wallTime s.batch
        completions := s.completions.receive _ _ (popCompletionBatch_append s.completions.waiting) }
    else none
  | .stop => some { s with running := false }

/-- The state at the start of a run. -/
def start [Field K] (now : K) : DeliveryState K where
  dispatcher := CountState.start now
  completions := .empty
  running := true
  processed := []
  routedAt _ := now

/-- The steps of `counting` that a step of the system stands for. -/
def countLabels (s : DeliveryState K) : DeliveryLabel K → List (CountLabel K)
  | .dispatch l => [l]
  | .drain wallTime => s.batch.map fun c =>
      .complete c.requestId c.serviceId c.success c.responseTimeSec (wallTime c.requestId)
  | _ => []

end DeliveryState

/-- The pods and the dispatcher. -/
def delivering (K : Type) [Field K] [LinearOrder K] [Environment K] :
    TransitionSystem (DeliveryState K) (DeliveryLabel K) where
  init s := ∃ now, s = DeliveryState.start now
  step s l s' := s.next l = some s'

/-! ### Batches -/

namespace CountState

variable [Field K] [LinearOrder K]

/-- Completions route nothing. -/
theorem routed_completeBatch (wallTime : RequestId → K) (s : CountState K)
    (batch : List (CompletionReport K)) : (s.completeBatch wallTime batch).routed = s.routed :=
  List.foldl_invariant (P := fun a : CountState K => a.routed = s.routed) rfl fun _ _ _ h => h

/-- The reports of a batch are completed in their order. -/
theorem completed_completeBatch (wallTime : RequestId → K) (s : CountState K)
    (batch : List (CompletionReport K)) :
    (s.completeBatch wallTime batch).completed
      = (batch.map CompletionReport.requestId).reverse ++ s.completed := by
  induction batch generalizing s with
  | nil => rfl
  | cons c batch ih =>
    have hrest : ((s.complete wallTime c).completeBatch wallTime batch).completed
        = (batch.map CompletionReport.requestId).reverse ++ c.requestId :: s.completed := ih _
    rw [List.map_cons, List.reverse_cons, List.append_assoc]
    exact hrest

/-- The rest of a batch is still to be recorded after its first report. -/
theorem notMem_completed_complete (wallTime : RequestId → K) {s : CountState K}
    {c : CompletionReport K} {batch : List (CompletionReport K)}
    (hc : c.requestId ∉ batch.map CompletionReport.requestId)
    (hnew : ∀ d ∈ c :: batch, d.requestId ∉ s.completed) :
    ∀ d ∈ batch, d.requestId ∉ (s.complete wallTime c).completed := by
  intro d hd hmem
  rcases List.mem_cons.1 hmem with heq | hmem
  · exact hc (heq ▸ List.mem_map_of_mem hd)
  · exact hnew d (List.mem_cons_of_mem c hd) hmem

variable [Environment K]

/-- Recording a report is a step of `counting`. -/
theorem step_complete (wallTime : RequestId → K) {s : CountState K} {c : CompletionReport K}
    (hrouted : c.requestId ∈ s.routed) (hnew : c.requestId ∉ s.completed) :
    (counting K).step s
      (.complete c.requestId c.serviceId c.success c.responseTimeSec (wallTime c.requestId))
      (s.complete wallTime c) :=
  if_pos ⟨hrouted, hnew⟩

/-- Recording a batch is a run of `counting`. -/
theorem run_completeBatch (wallTime : RequestId → K) {s : CountState K}
    {batch : List (CompletionReport K)} (hrouted : ∀ c ∈ batch, c.requestId ∈ s.routed)
    (hnodup : (batch.map CompletionReport.requestId).Nodup)
    (hnew : ∀ c ∈ batch, c.requestId ∉ s.completed) :
    ∃ h, (counting K).Run s h (s.completeBatch wallTime batch) ∧
      (h.map TransitionSystem.Step.label).reverse = batch.map fun c =>
        .complete c.requestId c.serviceId c.success c.responseTimeSec (wallTime c.requestId) := by
  induction batch generalizing s with
  | nil => exact ⟨[], .nil, rfl⟩
  | cons c batch ih =>
    rw [List.map_cons, List.nodup_cons] at hnodup
    obtain ⟨hc, hnodup⟩ := hnodup
    have hstep := step_complete wallTime (hrouted c List.mem_cons_self) (hnew c List.mem_cons_self)
    obtain ⟨h, hrun, hlabels⟩ := ih (s := s.complete wallTime c)
      (fun d hd => hrouted d (List.mem_cons_of_mem c hd)) hnodup
      (notMem_completed_complete wallTime hc hnew)
    refine ⟨_, (TransitionSystem.Run.nil.cons hstep).append hrun, ?_⟩
    rw [List.map_append, List.reverse_append, hlabels]
    rfl

end CountState

/-! ### Delivery -/

namespace DeliveryState

/-- A report is about a routed request, no two are about the same one, and the requests of the
received reports are those whose completion the dispatcher has recorded. -/
structure Delivered (s : DeliveryState K) : Prop where
  processed : ∀ i ∈ s.processed, i ∈ s.dispatcher.routed
  sent : ∀ c ∈ s.completions.sent, c.requestId ∈ s.processed
  nodup : (s.completions.sent.map CompletionReport.requestId).Nodup
  received : s.completions.received.map CompletionReport.requestId = s.dispatcher.completed.reverse

variable [Field K] [LinearOrder K] [Environment K] {s s' s₀ : DeliveryState K} {l : DeliveryLabel K}
  {h h' : List (TransitionSystem.Step (DeliveryState K) (DeliveryLabel K))}

/-- What a step can do. -/
inductive Moves (s : DeliveryState K) : DeliveryLabel K → DeliveryState K → Prop
  | dispatch {l : CountLabel K} {dispatcher : CountState K} (hl : l.isComplete = false)
      (hstep : (counting K).step s.dispatcher l dispatcher) :
      Moves s (.dispatch l) { s with dispatcher, routedAt := l.noteRoute s.routedAt }
  | stored {k : ReplicaKey} {i : RequestId} {responseTimeSec : K} (hrouted : i ∈ s.dispatcher.routed)
      (hnew : i ∉ s.processed) :
      Moves s (.process k i responseTimeSec true) { s with
        completions := s.completions.send (processReport k i responseTimeSec)
        processed := i :: s.processed }
  | refused {k : ReplicaKey} {i : RequestId} {responseTimeSec : K} (hrouted : i ∈ s.dispatcher.routed)
      (hnew : i ∉ s.processed) :
      Moves s (.process k i responseTimeSec false) { s with processed := i :: s.processed }
  | drain {wallTime : RequestId → K} (hrunning : s.running = true) :
      Moves s (.drain wallTime) { s with
        dispatcher := s.dispatcher.completeBatch wallTime s.batch
        completions := s.completions.receive _ _ (popCompletionBatch_append s.completions.waiting) }
  | stop : Moves s .stop { s with running := false }

/-- Every step of the system is one of its moves. -/
theorem moves_of_step (hstep : (delivering K).step s l s') : s.Moves l s' := by
  cases l with
  | dispatch l =>
    obtain ⟨hl, heq⟩ := Option.ite_none_left_eq_some.1 hstep
    obtain ⟨dispatcher, hnext, rfl⟩ := Option.map_eq_some_iff.1 heq
    exact .dispatch (Bool.eq_false_of_not_eq_true hl) hnext
  | process k i responseTimeSec stored =>
    obtain ⟨⟨hrouted, hnew⟩, heq⟩ := Option.ite_none_right_eq_some.1 hstep
    obtain rfl := Option.some_inj.1 heq
    cases stored with
    | false => exact .refused hrouted hnew
    | true => exact .stored hrouted hnew
  | drain wallTime =>
    obtain ⟨hrunning, heq⟩ := Option.ite_none_right_eq_some.1 hstep
    obtain rfl := Option.some_inj.1 heq
    exact .drain hrunning
  | stop =>
    obtain rfl := Option.some_inj.1 hstep
    exact .stop

/-- What the steps of the dispatcher other than completions do to the two histories. -/
theorem kept_of_step {s s' : CountState K} {l : CountLabel K} (hl : l.isComplete = false)
    (hstep : (counting K).step s l s') : s.routed ⊆ s'.routed ∧ s'.completed = s.completed := by
  cases l with
  | route algorithm i v btsLat btsLong times found =>
    obtain ⟨-, heq⟩ := Option.ite_none_left_eq_some.1 hstep
    obtain rfl := Option.some_inj.1 heq
    refine ⟨?_, rfl⟩
    dsimp only [CountState.afterRoute]
    split
    · exact List.subset_cons_self i s.routed
    · exact List.Subset.refl s.routed
  | complete i v success responseTimeSec wallTime => cases hl
  | reap wallTime =>
    obtain rfl := Option.some_inj.1 hstep
    exact ⟨List.Subset.refl _, rfl⟩
  | prune =>
    obtain rfl := Option.some_inj.1 hstep
    exact ⟨List.Subset.refl _, rfl⟩
  | change replicasByService =>
    obtain rfl := Option.some_inj.1 hstep
    exact ⟨List.Subset.refl _, rfl⟩
  | wait t =>
    obtain ⟨-, heq⟩ := Option.ite_none_right_eq_some.1 hstep
    obtain rfl := Option.some_inj.1 heq
    exact ⟨List.Subset.refl _, rfl⟩

omit [Field K] [LinearOrder K] [Environment K] in
/-- The reports of the next batch can be recorded. -/
theorem Delivered.batch (hs : s.Delivered) : (∀ c ∈ s.batch, c.requestId ∈ s.dispatcher.routed) ∧
    (s.batch.map CompletionReport.requestId).Nodup ∧
      ∀ c ∈ s.batch, c.requestId ∉ s.dispatcher.completed := by
  have hsent : s.completions.sent = s.completions.received ++ s.batch
      ++ (popCompletionBatch completionBatchSize s.completions.waiting).2 := by
    rw [DeliveryState.batch, List.append_assoc, popCompletionBatch_append, s.completions.sent_eq]
  have hnodup := hs.nodup
  rw [hsent, List.map_append, List.map_append, hs.received] at hnodup
  obtain ⟨hfront, -, -⟩ := List.nodup_append.1 hnodup
  obtain ⟨-, hbatch, hdisjoint⟩ := List.nodup_append.1 hfront
  refine ⟨fun c hc => hs.processed _ (hs.sent c ?_), hbatch, fun c hc hmem => ?_⟩
  · rw [hsent]
    exact List.mem_append_left _ (List.mem_append_right _ hc)
  · exact hdisjoint _ (List.mem_reverse.2 hmem) _ (List.mem_map_of_mem hc) rfl

/-- Every move keeps the reports and the completions together. -/
theorem Delivered.move (hs : s.Delivered) (hstep : s.Moves l s') : s'.Delivered := by
  cases hstep with
  | dispatch hl hstep =>
    obtain ⟨hrouted, hcompleted⟩ := kept_of_step hl hstep
    refine ⟨fun i hi => hrouted (hs.processed i hi), hs.sent, hs.nodup, ?_⟩
    dsimp only
    rw [hcompleted, hs.received]
  -- the report is new: it is pushed behind the earlier ones
  | @stored k i responseTimeSec hrouted hnew =>
    refine ⟨fun j hj => ?_, fun c hc => ?_, ?_, hs.received⟩
    · rcases List.mem_cons.1 hj with rfl | hj
      · exact hrouted
      · exact hs.processed j hj
    · rcases List.mem_append.1 hc with hc | hc
      · exact List.mem_cons_of_mem _ (hs.sent c hc)
      · rw [List.mem_singleton.1 hc]
        exact List.mem_cons_self
    · dsimp only [Mailbox.send]
      rw [List.map_append, List.nodup_append]
      refine ⟨hs.nodup, List.nodup_singleton _, fun j hj j' hj' heq => hnew ?_⟩
      obtain ⟨c, hc, rfl⟩ := List.mem_map.1 hj
      rw [List.map_singleton, List.mem_singleton] at hj'
      have hi : c.requestId = i := heq.trans hj'
      exact hi ▸ hs.sent c hc
  | @refused k i responseTimeSec hrouted hnew =>
    refine ⟨fun j hj => ?_, fun c hc => List.mem_cons_of_mem _ (hs.sent c hc), hs.nodup, hs.received⟩
    rcases List.mem_cons.1 hj with rfl | hj
    · exact hrouted
    · exact hs.processed j hj
  -- the batch is taken off the queue in its order
  | @drain wallTime hrunning =>
    refine ⟨fun i hi => ?_, hs.sent, hs.nodup, ?_⟩
    · dsimp only
      rw [CountState.routed_completeBatch]
      exact hs.processed i hi
    · dsimp only [Mailbox.receive]
      rw [CountState.completed_completeBatch, List.map_append, hs.received, List.reverse_append,
        List.reverse_reverse]
      rfl
  | stop => exact ⟨hs.processed, hs.sent, hs.nodup, hs.received⟩

omit [LinearOrder K] [Environment K] in
/-- At the start nothing is to be delivered. -/
theorem delivered_start (now : K) : (start now).Delivered where
  processed _ hi := absurd hi List.not_mem_nil
  sent _ hc := absurd hc List.not_mem_nil
  nodup := List.nodup_nil
  received := rfl

/-- What a step does to the list. -/
theorem Moves.mailbox (hstep : s.Moves l s') :
    s.completions.Next completionBatchSize l.isDrain s'.completions := by
  cases hstep with
  | dispatch hl hstep => exact .keep
  | stored hrouted hnew => exact .send _
  | refused hrouted hnew => exact .keep
  | drain hrunning =>
    exact .receive _ _ (popCompletionBatch_append _) (length_popCompletionBatch s.completions.waiting)
  | stop => exact .keep

/-- The dispatcher's part of a step is a run of `counting`. -/
theorem Delivered.counts (hs : s.Delivered) (hstep : s.Moves l s') :
    ∃ h, (counting K).Run s.dispatcher h s'.dispatcher ∧
      (h.map TransitionSystem.Step.label).reverse = s.countLabels l := by
  cases hstep with
  | @dispatch l dispatcher hl hstep => exact ⟨_, TransitionSystem.Run.nil.cons hstep, rfl⟩
  | stored hrouted hnew => exact ⟨[], .nil, rfl⟩
  | refused hrouted hnew => exact ⟨[], .nil, rfl⟩
  | @drain wallTime hrunning =>
    obtain ⟨hrouted, hnodup, hnew⟩ := hs.batch
    exact CountState.run_completeBatch wallTime hrouted hnodup hnew
  | stop => exact ⟨[], .nil, rfl⟩

/-- In a run a report is delivered once. -/
theorem delivered_of_run (hinit : (delivering K).init s₀) (hrun : (delivering K).Run s₀ h s) :
    s.Delivered := by
  obtain ⟨now, rfl⟩ := hinit
  exact hrun.invariant (P := Delivered) (delivered_start now) fun st _ hstep hs =>
    hs.move (moves_of_step hstep)

/-- The dispatcher's part of a run. -/
theorem counts_of_run (hinit : (delivering K).init s₀) (hrun : (delivering K).Run s₀ h s) :
    ∃ h', (counting K).Run s₀.dispatcher h' s.dispatcher ∧
      (h'.map TransitionSystem.Step.label).reverse
        = h.reverse.flatMap fun st => st.before.countLabels st.label := by
  induction hrun with
  | nil => exact ⟨[], .nil, rfl⟩
  | @cons h a b l hrun hstep ih =>
    obtain ⟨h₁, hrun₁, hlabels₁⟩ := ih
    obtain ⟨h₂, hrun₂, hlabels₂⟩ := (delivered_of_run hinit hrun).counts (moves_of_step hstep)
    refine ⟨h₂ ++ h₁, hrun₁.append hrun₂, ?_⟩
    rw [List.map_append, List.reverse_append, hlabels₁, hlabels₂, List.reverse_cons,
      List.flatMap_append]
    simp

/-- **Every stored report is recorded once, in the order in which the reports were stored.** The
dispatcher runs as in `counting`, where the received reports are its completions. No two reports are
about one request, and a report that waits behind `k` others is received after `k / 500 + 1` passes of
the drain loop. -/
theorem completions_delivered (hinit : (delivering K).init s₀) (hrun : (delivering K).Run s₀ h s)
    (hlater : (delivering K).Run s h' s') :
    (∃ h₁, (counting K).Run s₀.dispatcher h₁ s.dispatcher ∧
      (h₁.map TransitionSystem.Step.label).reverse
        = h.reverse.flatMap fun st => st.before.countLabels st.label) ∧
    s.Delivered ∧ s.completions.received <+: s'.completions.received ∧
    ∀ (k : ℕ) (c : CompletionReport K), s.completions.waiting[k]? = some c →
      k / completionBatchSize < h'.countP (fun st => st.label.isDrain) →
        c ∈ s'.completions.received ∧ c.requestId ∈ s'.dispatcher.completed := by
  have hdelivered := delivered_of_run hinit (hrun.append hlater)
  obtain ⟨hsent, hreceived, hprogress⟩ := hlater.mailbox (n := completionBatchSize)
    DeliveryState.completions (fun st => st.label.isDrain) fun s l s' hstep =>
      (moves_of_step hstep).mailbox
  refine ⟨counts_of_run hinit hrun, delivered_of_run hinit hrun, hreceived, fun k c hc hk => ?_⟩
  obtain ⟨hlength, -⟩ := List.getElem?_eq_some_iff.1 hc
  have hmem : c ∈ s'.completions.received := by
    refine Mailbox.mem_received hsent hc (lt_of_lt_of_le ?_ hprogress)
    have hbatches : k < completionBatchSize * h'.countP (fun st => st.label.isDrain) :=
      (Nat.div_lt_iff_lt_mul (by decide)).1 hk |>.trans_eq (Nat.mul_comm _ _)
    have hlength_sent := s.completions.length_sent
    omega
  refine ⟨hmem, List.mem_reverse.1 ?_⟩
  rw [← hdelivered.received]
  exact List.mem_map_of_mem hmem

end DeliveryState

/-! ### Requests that are remembered -/

namespace RealtimeEngine

variable [Field K] [LinearOrder K] {e e' : RealtimeEngine K} {i : RequestId} {now now' r t : K}

/-- The request that was routed at the time `t` is in one of the two dictionaries, unless
`3 * max_age` seconds are over. -/
def Remembers (e : RealtimeEngine K) (now : K) (i : RequestId) (t : K) : Prop :=
  (∃ geo, e.requestGeo.lookup i = some geo ∧ geo.routedAt = t) ∨
    (∃ r, e.reapedRequestIds.lookup i = some r ∧ t + maxAge < r) ∨ t + 3 * maxAge < now

/-- What is remembered is read from two dictionaries. -/
theorem Remembers.congr (h : e.Remembers now i t)
    (hgeo : e'.requestGeo.lookup i = e.requestGeo.lookup i)
    (hreaped : e'.reapedRequestIds.lookup i = e.reapedRequestIds.lookup i) (hnow : now ≤ now') :
    e'.Remembers now' i t := by
  unfold Remembers
  rw [hgeo, hreaped]
  exact h.imp_right fun h => h.imp_right hnow.trans_lt'

/-- A request that is remembered and not too old is in one of the dictionaries. -/
theorem Remembers.known (h : e.Remembers now i t) (hnow : now ≤ t + 3 * maxAge) :
    i ∈ e.requestGeo ∨ i ∈ e.reapedRequestIds := by
  rcases h with ⟨geo, hgeo, -⟩ | ⟨r, hr, -⟩ | hlate
  · exact .inl (AList.lookup_isSome.1 (hgeo ▸ rfl))
  · exact .inr (AList.lookup_isSome.1 (hr ▸ rfl))
  · exact absurd hnow (not_le.2 hlate)

omit [LinearOrder K] in
/-- What giving up some requests does to the entries of one request. -/
theorem lookups_reap (now wallTime : K) (i : RequestId) (is : List RequestId) (e : RealtimeEngine K) :
    (i ∈ is ∧ i ∈ e.requestGeo ∧
      (is.foldl (reapRequest now wallTime) e).reapedRequestIds.lookup i = some now) ∨
    (i ∉ is ∨ i ∉ e.requestGeo) ∧
      (is.foldl (reapRequest now wallTime) e).requestGeo.lookup i = e.requestGeo.lookup i ∧
      (is.foldl (reapRequest now wallTime) e).reapedRequestIds.lookup i
        = e.reapedRequestIds.lookup i := by
  -- by induction on the ids that are given up
  induction is generalizing e with
  | nil => exact .inr ⟨.inl List.not_mem_nil, rfl, rfl⟩
  | cons j is ih =>
    rw [List.foldl_cons]
    by_cases hj : j ∈ e.requestGeo
    · obtain ⟨-, hgeo, hreaped⟩ := reapRequest_of_mem now wallTime hj
      -- the entry moves to `reaped_request_ids` with the time of the look
      by_cases hij : i = j
      · subst hij
        have hout : i ∉ (reapRequest now wallTime e i).requestGeo := by
          rw [hgeo, AList.mem_erase]
          exact fun h => h.1 rfl
        rcases ih (reapRequest now wallTime e i) with ⟨-, hin, -⟩ | ⟨-, -, hlookup⟩
        · exact absurd hin hout
        · refine .inl ⟨List.mem_cons_self, hj, ?_⟩
          rw [hlookup, hreaped, AList.lookup_insert]
      · have hgeo_eq : (reapRequest now wallTime e j).requestGeo.lookup i = e.requestGeo.lookup i := by
          rw [hgeo, AList.lookup_erase_ne hij]
        have hreaped_eq : (reapRequest now wallTime e j).reapedRequestIds.lookup i
            = e.reapedRequestIds.lookup i := by
          rw [hreaped, AList.lookup_insert_ne hij]
        have hmem : i ∈ (reapRequest now wallTime e j).requestGeo ↔ i ∈ e.requestGeo := by
          rw [hgeo, AList.mem_erase]
          exact and_iff_right hij
        rcases ih (reapRequest now wallTime e j) with ⟨hi, hin, hlookup⟩ | ⟨hnot, hsame, hsame'⟩
        · exact .inl ⟨List.mem_cons_of_mem j hi, hmem.1 hin, hlookup⟩
        · refine .inr ⟨?_, hsame.trans hgeo_eq, hsame'.trans hreaped_eq⟩
          exact hnot.imp (List.not_mem_cons_of_ne_of_not_mem hij) fun hnot hin => hnot (hmem.2 hin)
    -- the id has no entry: nothing happens
    · rw [reapRequest_of_notMem now wallTime hj]
      rcases ih e with ⟨hi, hin, hlookup⟩ | ⟨hnot, hsame⟩
      · exact .inl ⟨List.mem_cons_of_mem j hi, hin, hlookup⟩
      · refine .inr ⟨?_, hsame⟩
        by_cases hij : i = j
        · exact .inr (hij ▸ hj)
        · exact hnot.imp_left (List.not_mem_cons_of_ne_of_not_mem hij)

/-- A request is forgotten `2 * max_age` seconds after it was given up. -/
theorem lookup_pruneReapedIds (now : K) (hr : e.reapedRequestIds.lookup i = some r) :
    (e.pruneReapedIds now).reapedRequestIds.lookup i = some r ∨ 2 * maxAge < now - r := by
  have hfold : ∀ (is : List RequestId) (d : AList fun _ : RequestId => K), i ∉ is →
      (is.foldl (fun d j => d.erase j) d).lookup i = d.lookup i := by
    intro is
    induction is with
    | nil => exact fun d _ => rfl
    | cons j is ih =>
      intro d hi
      rw [List.mem_cons, not_or] at hi
      rw [List.foldl_cons, ih _ hi.2, AList.lookup_erase_ne hi.1]
  by_cases hi : i ∈ e.forgottenIds now
  · right
    obtain ⟨⟨j, r'⟩, hp, rfl⟩ := List.mem_map.1 hi
    obtain ⟨hmem, hold⟩ := List.mem_filter.1 hp
    rw [AList.mem_items.1 hmem] at hr
    obtain rfl := Option.some_inj.1 hr
    exact of_decide_eq_true hold
  · exact .inl ((hfold _ _ hi).trans hr)

/-- Reaping only adds records. -/
theorem recordedIds_subset_reap (now wallTime : K) (e : RealtimeEngine K) :
    e.recordedIds ⊆ (e.reapLostRequests now wallTime).recordedIds := by
  refine List.foldl_invariant (P := fun a : RealtimeEngine K => e.recordedIds ⊆ a.recordedIds)
    (List.Subset.refl _) fun a i _ ha => ?_
  by_cases hi : i ∈ a.requestGeo
  · rw [(reapRequest_of_mem now wallTime hi).1]
    exact List.subset_cons_of_subset i ha
  · rwa [reapRequest_of_notMem now wallTime hi]

variable [IsStrictOrderedRing K]

/-- A request is reaped late enough to be remembered. -/
theorem Remembers.reap (h : e.Remembers now i t) (hledger : i ∈ e.requestGeo → i ∉ e.reapedRequestIds)
    (wallTime : K) : (e.reapLostRequests now wallTime).Remembers now i t := by
  rcases lookups_reap now wallTime i (e.staleIds now) e with ⟨hi, hin, hlookup⟩ | ⟨-, hgeo, hreaped⟩
  · obtain ⟨⟨j, geo⟩, hp, rfl⟩ := List.mem_map.1 hi
    obtain ⟨hmem, hstale⟩ := List.mem_filter.1 hp
    have hold : maxAge < now - geo.routedAt := of_decide_eq_true hstale
    rcases h with ⟨geo', hgeo', rfl⟩ | ⟨r, hr, -⟩ | hlate
    · -- it is given up now, more than `max_age` seconds after it was routed
      rw [AList.mem_items.1 hmem] at hgeo'
      obtain rfl := Option.some_inj.1 hgeo'
      exact .inr (.inl ⟨now, hlookup, by linarith⟩)
    · exact absurd (AList.lookup_isSome.1 (hr ▸ rfl)) (hledger hin)
    · exact .inr (.inr hlate)
  · exact h.congr hgeo hreaped le_rfl

/-- A reaped request is forgotten only some time later. -/
theorem Remembers.prune (h : e.Remembers now i t) : (e.pruneReapedIds now).Remembers now i t := by
  rcases h with hgeo | ⟨r, hr, ht⟩ | hlate
  · exact .inl hgeo
  · rcases lookup_pruneReapedIds now hr with hkept | hold
    · exact .inr (.inl ⟨r, hkept, ht⟩)
    · -- it was given up `2 * max_age` seconds ago, and routed `max_age` seconds before that
      exact .inr (.inr (by linarith))
  · exact .inr (.inr hlate)

variable [Environment K]

omit [IsStrictOrderedRing K] in
/-- What a call of `route_request` does that raises no exception. -/
theorem effect_routeRequest {algorithm : RoutingAlgorithm} (halgorithm : algorithm ≠ .voila)
    (e : RealtimeEngine K) (i : RequestId) (v : ServiceId) (btsLat btsLong : K) (times : RouteTimes K) :
    (e.routeRequest algorithm i v btsLat btsLong times).Ensures Command.exec fun _ out =>
      (∃ server deadlineSec geo, out.1 = .ok (.routed server deadlineSec) ∧
        geo.routedAt = times.routedAt ∧ out.2 = (e.countArrival v btsLat btsLong).countRouted i geo) ∨
      ∃ status wallTime, out.1 = .ok (.rejected status) ∧
        out.2 = (e.countArrival v btsLat btsLong).countRejection i v btsLat btsLong status wallTime := by
  have hselect := ensures_selectReplica
    (fun r => ensures_tryReserveQueueSlot (v, r.serverId) r.queueLen i (deadlineOf v + 5))
    (fun r => ensures_getQueueOccupancy (v, r.serverId)) halgorithm (btsLat, btsLong)
    ((e.replicasByService v).filter Replica.isSelectable)
  refine Script.ensures_bind.2 (hselect.mono fun log chosen h => ?_)
  obtain ⟨o, rfl, -⟩ := h
  cases o with
  | none => exact Script.ensures_issue.2 fun wallTime => Script.ensures_done.2 (.inr ⟨_, _, rfl, rfl⟩)
  | some r => exact Script.ensures_done.2 (.inl ⟨_, _, _, rfl, rfl, rfl⟩)

end RealtimeEngine

/-! ### Counting every request once -/

/-- A call of `route_request` that raises no exception. -/
def CountLabel.Answers : CountLabel K → Prop
  | route algorithm _ _ _ _ _ _ => algorithm ≠ .voila
  | _ => True

/-- Whether a call of `route_request` raises an exception. -/
instance : (l : CountLabel K) → Decidable l.Answers
  | .route algorithm _ _ _ _ _ _ => inferInstanceAs (Decidable (algorithm ≠ .voila))
  | .complete _ _ _ _ _ => isTrue trivial
  | .reap _ => isTrue trivial
  | .prune => isTrue trivial
  | .change _ => isTrue trivial
  | .wait _ => isTrue trivial

namespace CountState

/-- Every request is known, and none has been recorded twice. -/
structure Exact [Field K] [LinearOrder K] (s : CountState K) (routedAt : RequestId → K) : Prop where
  ledger : Ledger s.engine s.requested s.routed
  balanced : s.engine.metrics.Balanced
  remembered : ∀ i ∈ s.routed, i ∉ s.completed → s.engine.Remembers s.now i (routedAt i)
  completed : ∀ i ∈ s.completed, i ∈ s.routed ∧ i ∉ s.engine.requestGeo
  recordedOnce : s.engine.recordedIds.Nodup
  requestedOnce : s.requested.Nodup
  answered : ∀ i ∈ s.requested, i ∈ s.routed ∨ i ∈ s.engine.recordedIds

variable [Field K] [LinearOrder K] {s s' : CountState K} {l : CountLabel K} {routedAt : RequestId → K}

omit [Field K] [LinearOrder K] in
/-- Only completions rely on what is known. -/
theorem known_of_not_complete (s : CountState K) (hl : l.isComplete = false) : s.Known l := by
  cases l with
  | complete i v success responseTimeSec wallTime => cases hl
  | _ => trivial

/-- At the start every request that was routed has been counted, since there is none. -/
theorem exact_start (now : K) (routedAt : RequestId → K) : (start now).Exact routedAt where
  ledger := ledger_start now
  balanced := ⟨rfl, rfl, le_rfl⟩
  remembered _ hi := absurd hi List.not_mem_nil
  completed _ hi := absurd hi List.not_mem_nil
  recordedOnce := List.nodup_nil
  requestedOnce := List.nodup_nil
  answered _ hi := absurd hi List.not_mem_nil

variable [IsStrictOrderedRing K] [Environment K]

omit [IsStrictOrderedRing K] in
/-- A call of `route_request` that raises no exception keeps the requests known. -/
theorem Exact.route (hs : s.Exact routedAt) {algorithm : RoutingAlgorithm} {i : RequestId}
    {v : ServiceId} {btsLat btsLong : K} {times : RouteTimes K} {found : ℕ → Redis K}
    (halgorithm : algorithm ≠ .voila)
    (hstep : (counting K).step s (.route algorithm i v btsLat btsLong times found) s') :
    s'.Exact (Function.update routedAt i times.routedAt) := by
  obtain ⟨hledger, hnodup⟩ := ledger_step hs.ledger hstep
  have hrecordedOnce := hnodup.2 ⟨known_of_not_complete s rfl, hs.recordedOnce⟩
  have hbalanced := balanced_step hs.balanced hstep
  obtain ⟨hpossible, heq⟩ := Option.ite_none_left_eq_some.1 hstep
  replace heq := Option.some_inj.1 heq
  have heffect := RealtimeEngine.effect_routeRequest halgorithm s.engine i v btsLat btsLong times _ _
    (Script.performs_play Command.exec _ found)
  generalize ((s.engine.routeRequest algorithm i v btsLat btsLong times).play Command.exec
    found).2 = out at heffect heq
  obtain ⟨hnew, hclock⟩ : i ∉ s.requested ∧ s.now ≤ times.answeredAt := by
    rw [not_or, not_lt] at hpossible
    exact hpossible
  -- an id is asked for once, so what is known of the other requests stays
  have hother : ∀ j ∈ s.routed, j ≠ i := fun j hj heq => hnew (heq ▸ hs.ledger.routed j hj)
  obtain ⟨answer, engine⟩ := out
  subst heq
  rcases heffect with ⟨server, deadlineSec, geo, hanswer, hrouted, hengine⟩ |
      ⟨status, wallTime, hanswer, hengine⟩
  -- the request has been routed: its entry says when
  · obtain rfl : answer = .ok (.routed server deadlineSec) := hanswer
    obtain rfl : engine = _ := hengine
    have hlookup : ∀ j, j ≠ i → ((s.engine.countArrival v btsLat btsLong).countRouted i
        geo).requestGeo.lookup j = s.engine.requestGeo.lookup j := fun j hj =>
      AList.lookup_insert_ne hj
    refine ⟨hledger, hbalanced, fun j hj hjc => ?_, fun j hj => ?_, hrecordedOnce,
      List.nodup_cons.2 ⟨hnew, hs.requestedOnce⟩, fun j hj => ?_⟩
    · by_cases hji : j = i
      · subst hji
        rw [Function.update_self]
        exact .inl ⟨geo, AList.lookup_insert _, hrouted⟩
      · rw [Function.update_of_ne hji]
        have hold : j ∈ s.routed := (List.mem_cons.1 hj).resolve_left hji
        exact (hs.remembered j hold hjc).congr (hlookup j hji) rfl hclock
    · obtain ⟨hj, hgone⟩ := hs.completed j hj
      refine ⟨List.mem_cons_of_mem i hj, fun hmem => hgone ?_⟩
      exact ((AList.mem_insert _).1 hmem).resolve_left (hother j hj)
    · rcases List.mem_cons.1 hj with rfl | hj
      · exact .inl List.mem_cons_self
      · exact (hs.answered j hj).imp_left (List.mem_cons_of_mem i)
  -- the request has been rejected: it is recorded and never routed
  · obtain rfl : answer = .ok (.rejected status) := hanswer
    obtain rfl : engine = _ := hengine
    have hrecorded : ((s.engine.countArrival v btsLat btsLong).countRejection i v btsLat btsLong status
        wallTime).recordedIds = i :: s.engine.recordedIds := by
      rw [RealtimeEngine.recordedIds, RealtimeEngine.countRejection,
        MetricsCollector.recorded_recordRequest]
      rfl
    refine ⟨hledger, hbalanced, fun j hj hjc => ?_, hs.completed, hrecordedOnce,
      List.nodup_cons.2 ⟨hnew, hs.requestedOnce⟩, fun j hj => ?_⟩
    · rw [Function.update_of_ne (hother j hj)]
      exact (hs.remembered j hj hjc).congr rfl rfl hclock
    · rcases List.mem_cons.1 hj with rfl | hj
      · exact .inr (hrecorded ▸ List.mem_cons_self)
      · refine (hs.answered j hj).imp_right fun hmem => ?_
        exact hrecorded ▸ List.mem_cons_of_mem i hmem

/-- Every step but a completion keeps the books exact. -/
theorem Exact.step (hs : s.Exact routedAt) (hl : l.isComplete = false) (hanswers : l.Answers)
    (hstep : (counting K).step s l s') : s'.Exact (l.noteRoute routedAt) := by
  obtain ⟨hledger, hnodup⟩ := ledger_step hs.ledger hstep
  have hrecordedOnce := hnodup.2 ⟨known_of_not_complete s hl, hs.recordedOnce⟩
  have hbalanced := balanced_step hs.balanced hstep
  cases l with
  | route algorithm i v btsLat btsLong times found => exact hs.route hanswers hstep
  | complete i v success responseTimeSec wallTime => cases hl
  | reap wallTime =>
    obtain rfl := Option.some_inj.1 hstep
    refine ⟨hledger, hbalanced, fun i hi hic => ?_, fun i hi => ?_, hrecordedOnce, hs.requestedOnce,
      fun i hi => ?_⟩
    · exact (hs.remembered i hi hic).reap (fun hmem => (hs.ledger.waiting i hmem).2.2) wallTime
    · obtain ⟨hrouted, hgone⟩ := hs.completed i hi
      refine ⟨hrouted, fun hmem => hgone ?_⟩
      obtain ⟨geo, hgeo⟩ := Option.isSome_iff_exists.1 (AList.lookup_isSome.2 hmem)
      rw [← AList.lookup_isSome, (lookup_foldl_reapRequest s.now wallTime _ _ hgeo).1]
      rfl
    · exact (hs.answered i hi).imp_right fun hmem =>
        RealtimeEngine.recordedIds_subset_reap s.now wallTime s.engine hmem
  | prune =>
    obtain rfl := Option.some_inj.1 hstep
    exact ⟨hledger, hbalanced, fun i hi hic => (hs.remembered i hi hic).prune, hs.completed,
      hrecordedOnce, hs.requestedOnce, hs.answered⟩
  | change replicasByService =>
    obtain rfl := Option.some_inj.1 hstep
    exact ⟨hledger, hbalanced, fun i hi hic => (hs.remembered i hi hic).congr rfl rfl le_rfl,
      hs.completed, hrecordedOnce, hs.requestedOnce, hs.answered⟩
  | wait t =>
    obtain ⟨ht, heq⟩ := Option.ite_none_right_eq_some.1 hstep
    obtain rfl := Option.some_inj.1 heq
    exact ⟨hledger, hbalanced,
      fun i hi hic => (hs.remembered i hi hic).congr rfl rfl (le_add_of_nonneg_right ht),
      hs.completed, hrecordedOnce, hs.requestedOnce, hs.answered⟩

omit [IsStrictOrderedRing K] in
/-- A completion that is recorded in time. -/
theorem Exact.complete (hs : s.Exact routedAt) (wallTime : RequestId → K) {c : CompletionReport K}
    (hrouted : c.requestId ∈ s.routed) (hnew : c.requestId ∉ s.completed)
    (hprompt : s.now ≤ routedAt c.requestId + 3 * RealtimeEngine.maxAge) :
    (s.complete wallTime c).Exact routedAt := by
  have hstep := step_complete wallTime hrouted hnew
  have hknown := (hs.remembered _ hrouted hnew).known hprompt
  obtain ⟨hledger, hnodup⟩ := ledger_step hs.ledger hstep
  have hgeo : (s.complete wallTime c).engine.requestGeo = s.engine.requestGeo.erase c.requestId :=
    RealtimeEngine.requestGeo_complete _ _ _ _
  have hreaped : (s.complete wallTime c).engine.reapedRequestIds = s.engine.reapedRequestIds :=
    RealtimeEngine.reapedRequestIds_complete _ _ _ _
  refine ⟨hledger, balanced_step hs.balanced hstep, fun i hi hic => ?_, fun i hi => ?_,
    hnodup.2 ⟨hknown, hs.recordedOnce⟩, hs.requestedOnce, fun i hi => ?_⟩
  · have hne : i ≠ c.requestId := fun heq => hic (heq ▸ List.mem_cons_self)
    have hold : i ∉ s.completed := fun hmem => hic (List.mem_cons_of_mem _ hmem)
    refine (hs.remembered i hi hold).congr ?_ (by rw [hreaped]) le_rfl
    rw [hgeo, AList.lookup_erase_ne hne]
  · rw [hgeo, AList.mem_erase]
    rcases List.mem_cons.1 hi with rfl | hi
    · exact ⟨hrouted, fun hmem => hmem.1 rfl⟩
    · exact ⟨(hs.completed i hi).1, fun hmem => (hs.completed i hi).2 hmem.2⟩
  · refine (hs.answered i hi).imp_right fun hmem => ?_
    have hrecorded : (s.complete wallTime c).engine.recordedIds
        = if c.requestId ∈ s.engine.reapedRequestIds then s.engine.recordedIds
          else c.requestId :: s.engine.recordedIds :=
      RealtimeEngine.recordedIds_complete _ _ _ _
    rw [hrecorded]
    split
    · exact hmem
    · exact List.mem_cons_of_mem _ hmem

omit [IsStrictOrderedRing K] in
/-- A batch whose reports are recorded in time. -/
theorem Exact.completeBatch (wallTime : RequestId → K) {batch : List (CompletionReport K)}
    (hs : s.Exact routedAt) (hrouted : ∀ c ∈ batch, c.requestId ∈ s.routed)
    (hnodup : (batch.map CompletionReport.requestId).Nodup)
    (hnew : ∀ c ∈ batch, c.requestId ∉ s.completed)
    (hprompt : ∀ c ∈ batch, s.now ≤ routedAt c.requestId + 3 * RealtimeEngine.maxAge) :
    (s.completeBatch wallTime batch).Exact routedAt := by
  induction batch generalizing s with
  | nil => exact hs
  | cons c batch ih =>
    rw [List.map_cons, List.nodup_cons] at hnodup
    obtain ⟨hc, hnodup⟩ := hnodup
    have hfirst := hs.complete wallTime (hrouted c List.mem_cons_self) (hnew c List.mem_cons_self)
      (hprompt c List.mem_cons_self)
    exact ih hfirst (fun d hd => hrouted d (List.mem_cons_of_mem c hd)) hnodup
      (notMem_completed_complete wallTime hc hnew) fun d hd => hprompt d (List.mem_cons_of_mem c hd)

omit [LinearOrder K] [IsStrictOrderedRing K] [Environment K] in
/-- The requests that have been recorded and those in `_request_geo` are all requests. -/
theorem Exact.length_requested [LinearOrder K] (hs : s.Exact routedAt) :
    s.engine.metrics.totalRequests + s.engine.requestGeo.keys.length = s.requested.length := by
  have hperm : (s.engine.recordedIds ++ s.engine.requestGeo.keys).Perm s.requested := by
    refine (List.perm_ext_iff_of_nodup ?_ hs.requestedOnce).2 fun i => ?_
    · refine List.nodup_append.2 ⟨hs.recordedOnce, s.engine.requestGeo.keys_nodup, ?_⟩
      rintro i hi j hj rfl
      exact (hs.ledger.waiting i (AList.mem_keys.2 hj)).2.1 hi
    · rw [List.mem_append, ← AList.mem_keys]
      constructor
      · rintro (hi | hi)
        · exact hs.ledger.recorded i hi
        · exact hs.ledger.routed i (hs.ledger.waiting i hi).1
      · intro hi
        -- a routed request has been recorded as soon as it has left `_request_geo`
        by_cases hgeo : i ∈ s.engine.requestGeo
        · exact .inr hgeo
        · refine .inl ((hs.answered i hi).elim (fun hrouted => ?_) id)
          exact hs.ledger.gone i hrouted hgeo
  have hlength : s.engine.recordedIds.length = s.engine.metrics.recorded.length := List.length_map _
  rw [← hperm.length_eq, List.length_append, hlength, hs.balanced.total]

end CountState

namespace DeliveryState

variable [Field K] [LinearOrder K] [Environment K] {s s' s₀ : DeliveryState K} {l : DeliveryLabel K}
  {h : List (TransitionSystem.Step (DeliveryState K) (DeliveryLabel K))}

/-- No call of `route_request` in this step raises an exception, and no report is recorded more than
`3 * max_age` seconds after its request was routed. -/
def Prompt (s : DeliveryState K) : DeliveryLabel K → Prop
  | .dispatch l => l.Answers
  | .drain _ => ∀ c ∈ s.batch,
    s.dispatcher.now ≤ s.routedAt c.requestId + 3 * RealtimeEngine.maxAge
  | _ => True

variable [IsStrictOrderedRing K]

/-- Every prompt move keeps the counts exact. -/
theorem exact_move (hs : s.dispatcher.Exact s.routedAt) (hdelivered : s.Delivered)
    (hprompt : s.Prompt l) (hstep : s.Moves l s') : s'.dispatcher.Exact s'.routedAt := by
  cases hstep with
  | dispatch hl hstep => exact hs.step hl hprompt hstep
  | stored hrouted hnew => exact hs
  | refused hrouted hnew => exact hs
  | @drain wallTime hrunning =>
    obtain ⟨hrouted, hnodup, hnew⟩ := hdelivered.batch
    exact hs.completeBatch wallTime hrouted hnodup hnew hprompt
  | stop => exact hs

/-- **The report counts every request once.** In a run in which no report is recorded more than
`3 * max_age` seconds after its request was routed, every request has been recorded once, or it is in
`_request_geo`. A request in `_request_geo` has its report in the list, or none has been stored. -/
theorem report_of_prompt_run (hinit : (delivering K).init s₀) (hrun : (delivering K).Run s₀ h s)
    (hprompt : ∀ st ∈ h, st.before.Prompt st.label) :
    s.dispatcher.engine.recordedIds.Nodup ∧
    s.dispatcher.engine.metrics.totalRequests + s.dispatcher.engine.requestGeo.keys.length
      = s.dispatcher.requested.length ∧
    s.dispatcher.engine.metrics.Balanced ∧
    ∀ i ∈ s.dispatcher.engine.requestGeo, (∃ c ∈ s.completions.waiting, c.requestId = i) ∨
      ∀ c ∈ s.completions.sent, c.requestId ≠ i := by
  have hdelivered := delivered_of_run hinit hrun
  have hexact : s.dispatcher.Exact s.routedAt := by
    obtain ⟨now, rfl⟩ := hinit
    induction hrun with
    | nil => exact CountState.exact_start now _
    | @cons h a b l hrun hstep ih =>
      have hbefore := delivered_of_run ⟨now, rfl⟩ hrun
      have hearlier : ∀ st ∈ h, st.before.Prompt st.label := fun st hst =>
        hprompt st (List.mem_cons_of_mem _ hst)
      exact exact_move (ih hearlier hbefore) hbefore (hprompt _ List.mem_cons_self)
        (moves_of_step hstep)
  refine ⟨hexact.recordedOnce, hexact.length_requested, hexact.balanced, fun i hi => ?_⟩
  by_cases hsent : ∃ c ∈ s.completions.sent, c.requestId = i
  · -- a report that has been received has taken its request out of `_request_geo`
    obtain ⟨c, hc, rfl⟩ := hsent
    rw [s.completions.sent_eq] at hc
    refine .inl ⟨c, (List.mem_append.1 hc).resolve_left fun hreceived => ?_, rfl⟩
    have hcompleted : c.requestId ∈ s.dispatcher.completed := by
      rw [← List.mem_reverse, ← hdelivered.received]
      exact List.mem_map_of_mem hreceived
    exact (hexact.completed _ hcompleted).2 hi
  · refine .inr fun c hc heq => hsent ⟨c, hc, heq⟩

omit [IsStrictOrderedRing K] [Environment K] in
/-- Whether the reports of a step come in time. -/
instance (s : DeliveryState K) : (l : DeliveryLabel K) → Decidable (s.Prompt l)
  | .dispatch l => inferInstanceAs (Decidable l.Answers)
  | .process _ _ _ _ => isTrue trivial
  | .drain _ => inferInstanceAs (Decidable (∀ c ∈ s.batch,
      s.dispatcher.now ≤ s.routedAt c.requestId + 3 * RealtimeEngine.maxAge))
  | .stop => isTrue trivial

/-- The run with the given labels from a state. -/
def follow (s : DeliveryState K) (labels : List (DeliveryLabel K)) :
    Option (List (TransitionSystem.Step (DeliveryState K) (DeliveryLabel K)) × DeliveryState K) :=
  TransitionSystem.follow next labels ([], s)

omit [IsStrictOrderedRing K] in
/-- What is followed is a run. -/
theorem run_follow {labels : List (DeliveryLabel K)}
    {x : List (TransitionSystem.Step (DeliveryState K) (DeliveryLabel K)) × DeliveryState K}
    (hx : s.follow labels = some x) : (delivering K).Run s x.1 x.2 :=
  TransitionSystem.run_follow (fun _ _ _ hnext => hnext) .nil hx

/-- The request of `lostLabels` is given up, and its report arrives after that. -/
def lateLabels : List (DeliveryLabel ℚ) :=
  CountState.lostLabels.map .dispatch ++ [.process (14, 2) 1 60 true]

/-- The late report is received by the next pass of the drain loop. -/
theorem completions_delivered_late :
    ∃ x y : List (TransitionSystem.Step (DeliveryState ℚ) (DeliveryLabel ℚ)) × DeliveryState ℚ,
      (start 0).follow lateLabels = some x ∧ x.2.follow [.drain fun _ => 60] = some y ∧
      x.2.Delivered ∧ x.2.completions.waiting.length = 1 ∧
      ∀ c, x.2.completions.waiting[0]? = some c → c ∈ y.2.completions.received := by
  have hruns : ((start 0).follow lateLabels).any (fun x => x.2.completions.waiting.length = 1 &&
      (x.2.follow [.drain fun _ => 60]).any fun y =>
        y.1.countP (fun st => st.label.isDrain) = 1) = true := by
    decide +kernel
  obtain ⟨x, hx, hrest⟩ := (Option.any_eq_true _ _).1 hruns
  rw [Bool.and_eq_true, decide_eq_true_iff] at hrest
  obtain ⟨y, hy, hdrains⟩ := (Option.any_eq_true _ _).1 hrest.2
  obtain ⟨-, hdelivered, -, hreceived⟩ :=
    completions_delivered ⟨0, rfl⟩ (run_follow hx) (run_follow hy)
  refine ⟨x, y, hx, hy, hdelivered, hrest.1, fun c hc => (hreceived 0 c hc ?_).1⟩
  rw [of_decide_eq_true hdrains]
  decide

/-- The late report does not count its request again. -/
theorem report_of_prompt_run_late :
    ∃ x : List (TransitionSystem.Step (DeliveryState ℚ) (DeliveryLabel ℚ)) × DeliveryState ℚ,
      (start 0).follow (lateLabels ++ [.drain fun _ => 60]) = some x ∧
      x.2.dispatcher.completed = [1] ∧ x.2.dispatcher.engine.recordedIds.Nodup ∧
      x.2.dispatcher.engine.metrics.totalRequests + x.2.dispatcher.engine.requestGeo.keys.length
        = x.2.dispatcher.requested.length := by
  have hrun : ((start 0).follow (lateLabels ++ [.drain fun _ => 60])).any (fun x =>
      x.2.dispatcher.completed = [1] && decide (∀ st ∈ x.1, st.before.Prompt st.label)) = true := by
    decide +kernel
  obtain ⟨x, hx, htest⟩ := (Option.any_eq_true _ _).1 hrun
  rw [Bool.and_eq_true, decide_eq_true_iff, decide_eq_true_iff] at htest
  obtain ⟨honce, htotal, -, -⟩ := report_of_prompt_run ⟨0, rfl⟩ (run_follow hx) htest.2
  exact ⟨x, hx, htest.1, honce, htotal⟩

end DeliveryState

end EdgeRL
