import FlowQoS.Worker.Ownership

/-!
# Bounds and order of the transmit buffers

Within a call a core receives bursts, frees packets, hands packets to `send_packets` and flushes
buffers: `CoreCall.ops` lists these steps, and `run_ops` says that the calls of a run are their steps,
one after the other, so that a statement about every prefix of the steps is one about every moment of
the run. For each port, what the NIC has taken followed by what waits in the buffer is a subsequence
of what was sent to the port (`Outgoing`): a packet goes behind the ones that wait, and a flush offers
them from the front and drops the rest.
-/

namespace FlowQoS.Worker

variable {s : State} {cid port_id port_num : ℕ} {m : Mbuf}

/-- The first half of `send_packets`: a full buffer is flushed. -/
def makeRoom (s : State) (cid port_id refused : ℕ) : State :=
  if (s.buf cid port_id).tx_len = maxPktBurst then flushOf s cid cid port_id maxPktBurst refused else s

/-- The second half of `send_packets` writes the packet at the length the first half has left. -/
theorem sendPackets_makeRoom (s : State) (cid port_id : ℕ) (m : Mbuf) (refused : ℕ) :
    sendPackets s port_id cid m refused = (makeRoom s cid port_id refused).setBuf cid port_id
      (((makeRoom s cid port_id refused).buf cid port_id).push m) := by
  rw [sendPackets_eq]
  unfold makeRoom
  split <;> rfl

/-! ### The steps of a call -/

/-- What a core does with its packets and buffers. -/
inductive Op where
  | receive (ms : List Mbuf)
  | free (m : Mbuf)
  | send (port_id : ℕ) (m : Mbuf) (refused : ℕ)
  | flush (port_id refused : ℕ)

def Op.apply (cid : ℕ) (s : State) : Op → State
  | .receive ms => s.receive cid ms
  | .free m => s.free cid (some m)
  | .send port_id m refused => sendPackets s port_id cid m refused
  | .flush port_id refused => flushPort cid port_id refused s

/-- The calls made on a core: of `general_pkt_processor`, and of `send_packets` from elsewhere. -/
inductive CoreCall where
  | process (input : ℕ → RxBurst)
  | send (port_id : ℕ) (m : Mbuf) (refused : ℕ)

def CoreCall.run (cid : ℕ) (s : State) : CoreCall → State
  | .process input => (generalPktProcessor cid input s).2
  | .send port_id m refused => sendPackets s port_id cid m refused

/-- The step for a packet of a burst. -/
def rxOp (x : RxPacket) : Op :=
  if actionOf x.actions = dropPackets then .free x.m
  else .send (actionOf x.actions).toNat x.m x.refused

/-- The steps for a port. -/
def portOps (input : ℕ → RxBurst) (p : ℕ) : List Op :=
  .receive ((input p).rx.map RxPacket.m) :: (input p).rx.map rxOp ++ [.flush p (input p).refused]

/-- The steps of a call on a core with `port_num` ports. -/
def CoreCall.ops (port_num : ℕ) : CoreCall → List Op
  | .process input => (List.range port_num).flatMap (portOps input)
  | .send port_id m refused => [.send port_id m refused]

theorem rxStep_op (s : State) (x : RxPacket) : rxStep cid s x = (rxOp x).apply cid s := by
  unfold rxStep rxOp
  split <;> rfl

theorem portStep_ops (input : ℕ → RxBurst) (acc : ℕ × State) (p : ℕ) :
    (portStep cid input acc p).2 = (portOps input p).foldl (Op.apply cid) acc.2 := by
  have hrx : ∀ (rx : List RxPacket) (t : State),
      rx.foldl (rxStep cid) t = (rx.map rxOp).foldl (Op.apply cid) t := by
    intro rx
    induction rx with
    | nil => exact fun _ => rfl
    | cons x rx ih =>
      intro t
      rw [List.foldl_cons, List.map_cons, List.foldl_cons, ih, rxStep_op]
  unfold portStep portOps
  simp only [List.cons_append, List.foldl_cons, List.foldl_append, List.foldl_nil, hrx]
  rfl

theorem generalPktProcessor_ops (input : ℕ → RxBurst) (s : State) :
    (generalPktProcessor cid input s).2 =
      ((CoreCall.process input).ops (s.lcore_conf cid).port_num).foldl (Op.apply cid) s := by
  show ((List.range (s.lcore_conf cid).port_num).foldl (portStep cid input) (0, s)).2 =
    ((List.range (s.lcore_conf cid).port_num).flatMap (portOps input)).foldl (Op.apply cid) s
  generalize (s.lcore_conf cid).port_num = n
  induction n with
  | zero => rfl
  | succ n ih =>
    rw [List.range_succ, List.foldl_append, List.foldl_cons, List.foldl_nil, portStep_ops, ih,
      List.flatMap_append, List.flatMap_singleton, List.foldl_append]

/-! ### Frames -/

theorem port_num_setBuf (b : QueuesBuf) (c : ℕ) :
    ((s.setBuf cid port_id b).lcore_conf c).port_num = (s.lcore_conf c).port_num := by
  unfold State.setBuf
  by_cases hc : c = cid
  · subst hc
    simp
  · simp [hc]

theorem port_num_flushOf (owner n refused c : ℕ) :
    ((flushOf s cid owner port_id n refused).lcore_conf c).port_num = (s.lcore_conf c).port_num := by
  unfold flushOf
  rw [port_num_setBuf, (freeRest_frame _ _ _).1]
  rfl

theorem port_num_makeRoom (refused c : ℕ) :
    ((makeRoom s cid port_id refused).lcore_conf c).port_num = (s.lcore_conf c).port_num := by
  unfold makeRoom
  split
  · exact port_num_flushOf _ _ _ _
  · rfl

theorem port_num_apply (o : Op) (c : ℕ) :
    ((o.apply cid s).lcore_conf c).port_num = (s.lcore_conf c).port_num := by
  cases o with
  | receive ms => rfl
  | free m => rfl
  | send port_id m refused =>
    show ((sendPackets s port_id cid m refused).lcore_conf c).port_num = _
    rw [sendPackets_makeRoom, port_num_setBuf, port_num_makeRoom]
  | flush port_id refused =>
    show ((flushPort cid port_id refused s).lcore_conf c).port_num = _
    rw [flushPort_eq, port_num_flushOf]

theorem port_num_ops (os : List Op) (c : ℕ) :
    ((os.foldl (Op.apply cid) s).lcore_conf c).port_num = (s.lcore_conf c).port_num := by
  induction os generalizing s with
  | nil => rfl
  | cons o os ih => rw [List.foldl_cons, ih, port_num_apply]

theorem sent_freeRest (owner nb_tx n : ℕ) : (s.freeRest cid owner port_id nb_tx n).sent = s.sent := by
  unfold State.freeRest
  generalize List.range' nb_tx (n - nb_tx) = is
  induction is generalizing s with
  | nil => rfl
  | cons i is ih =>
    rw [List.foldl_cons, ih]
    cases (s.buf owner port_id).tx_burst i <;> rfl

/-- The calls of a run are their steps in order. -/
theorem run_ops (calls : List CoreCall) : ∀ s : State, (s.lcore_conf cid).port_num = port_num →
    calls.foldl (CoreCall.run cid) s =
      (calls.flatMap (CoreCall.ops port_num)).foldl (Op.apply cid) s := by
  induction calls with
  | nil => exact fun _ _ => rfl
  | cons c calls ih =>
    intro s hs
    have hc : c.run cid s = (c.ops port_num).foldl (Op.apply cid) s := by
      cases c with
      | process input =>
        rw [← hs]
        exact generalPktProcessor_ops input s
      | send port_id m refused => rfl
    rw [List.foldl_cons, hc, List.flatMap_cons, List.foldl_append, ih]
    rw [port_num_ops, hs]

/-! ### What is sent to a port, and what the NIC takes -/

/-- The packets of a buffer, in order. -/
def QueuesBuf.waiting (b : QueuesBuf) : List Mbuf :=
  (List.range b.tx_len).filterMap b.tx_burst

/-- The packets that the NIC has taken for a port, in order. -/
def State.accepted (s : State) (p : ℕ) : List Mbuf :=
  (s.sent.filter fun e => e.port_id = p).map Sent.m

/-- The packets that the steps send to a port. -/
def sentTo (p : ℕ) (os : List Op) : List Mbuf :=
  os.filterMap fun
    | .send q m _ => if q = p then some m else none
    | _ => none

/-- The packets that a call directs to a port, in the order in which they are processed. -/
def CoreCall.directed (port_num p : ℕ) : CoreCall → List Mbuf
  | .process input => (List.range port_num).flatMap fun q =>
      ((input q).rx.filter fun x => actionOf x.actions = p).map RxPacket.m
  | .send q m _ => if q = p then [m] else []

/-- Each processor drops or ignores a packet or gives it a port. -/
def CoreCall.Ok (port_num : ℕ) : CoreCall → Prop
  | .process input => ∀ p < port_num, (input p).rx.length ≤ maxPktBurst ∧
      ∀ x ∈ (input p).rx, ∀ a ∈ x.actions, a = dropPackets ∨ a = ignorePackets ∨ 0 ≤ a ∧ a < port_num
  | .send port_id _ _ => port_id < port_num

theorem sentTo_append (p : ℕ) (os os' : List Op) :
    sentTo p (os ++ os') = sentTo p os ++ sentTo p os' :=
  List.filterMap_append

theorem sentTo_flatMap {α : Type*} (p : ℕ) (f : α → List Op) (xs : List α) :
    sentTo p (xs.flatMap f) = xs.flatMap fun x => sentTo p (f x) := by
  unfold sentTo
  rw [List.filterMap_flatMap]

theorem sentTo_rxOp (p : ℕ) {x : RxPacket} (h : dropPackets ≤ actionOf x.actions) :
    sentTo p [rxOp x] = if actionOf x.actions = p then [x.m] else [] := by
  unfold rxOp
  unfold dropPackets at h ⊢
  split
  · next hdrop =>
    rw [if_neg (by omega)]
    rfl
  · next hdrop =>
    have hto : (actionOf x.actions).toNat = p ↔ actionOf x.actions = p := by omega
    by_cases hp : actionOf x.actions = p
    · simp [sentTo, hp]
    · simp [sentTo, mt hto.1 hp, hp]

theorem sentTo_rx (p : ℕ) {rx : List RxPacket} (h : ∀ x ∈ rx, dropPackets ≤ actionOf x.actions) :
    sentTo p (rx.map rxOp) = (rx.filter fun x => actionOf x.actions = p).map RxPacket.m := by
  induction rx with
  | nil => rfl
  | cons x rx ih =>
    have hrx := ih fun y hy => h y (List.mem_cons_of_mem _ hy)
    rw [List.map_cons, ← List.singleton_append, sentTo_append, hrx,
      sentTo_rxOp p (h x List.mem_cons_self), List.filter_cons]
    by_cases hp : actionOf x.actions = p
    · simp [hp]
    · simp [hp]

theorem sentTo_ops (p : ℕ) {c : CoreCall} (h : c.Ok port_num) :
    sentTo p (c.ops port_num) = c.directed port_num p := by
  cases c with
  | process input =>
    have hport : ∀ q ∈ List.range port_num, sentTo p (portOps input q) =
        ((input q).rx.filter fun x => actionOf x.actions = p).map RxPacket.m := by
      intro q hq
      have hge : ∀ x ∈ (input q).rx, dropPackets ≤ actionOf x.actions :=
        fun x hx => actionOf_ge ((h q (List.mem_range.1 hq)).2 x hx)
      unfold portOps
      rw [sentTo_append, ← List.singleton_append, sentTo_append, sentTo_rx p hge]
      simp [sentTo]
    show sentTo p ((List.range port_num).flatMap (portOps input)) = _
    rw [sentTo_flatMap]
    exact List.flatMap_congr hport
  | send q m refused =>
    unfold CoreCall.ops CoreCall.directed sentTo
    by_cases hq : q = p
    · simp [hq]
    · simp [hq]

/-! ### One step -/

/-- The buffer of the core for a port is within bounds, and what the NIC has taken, followed by what
waits, comes in order out of what was sent to the port. -/
structure Outgoing (s : State) (cid p : ℕ) (done : List Mbuf) : Prop where
  len : (s.buf cid p).tx_len ≤ maxPktBurst
  order : (s.accepted p ++ (s.buf cid p).waiting).Sublist done

variable {p : ℕ} {done : List Mbuf}

theorem Outgoing.congr {s' : State} (h : Outgoing s cid p done) (hbuf : s'.buf cid p = s.buf cid p)
    (hacc : s'.accepted p = s.accepted p) : Outgoing s' cid p done := by
  refine ⟨?_, ?_⟩
  · rw [hbuf]
    exact h.len
  · rw [hbuf, hacc]
    exact h.order

theorem waiting_push (b : QueuesBuf) (m : Mbuf) : (b.push m).waiting = b.waiting ++ [m] := by
  have hold : (List.range b.tx_len).filterMap (b.push m).tx_burst =
      (List.range b.tx_len).filterMap b.tx_burst := by
    refine List.filterMap_congr fun i hi => ?_
    exact Function.update_of_ne (List.mem_range.1 hi).ne _ _
  have hnew : (b.push m).tx_burst b.tx_len = some m := Function.update_self ..
  show (List.range (b.tx_len + 1)).filterMap (b.push m).tx_burst = _
  rw [List.range_succ, List.filterMap_append, hold]
  simp [hnew, QueuesBuf.waiting]

theorem sent_flushOf (owner n refused : ℕ) :
    (flushOf s cid owner port_id n refused).sent =
      s.sent ++ ((List.range (n - refused)).filterMap (s.buf cid port_id).tx_burst).map
        fun m => ⟨port_id, (s.lcore_conf cid).queue_id, m⟩ := by
  show ((s.txBurst cid port_id n refused).2.freeRest cid owner port_id (n - refused) n).sent = _
  rw [sent_freeRest]
  rfl

theorem accepted_flushOf (owner n refused : ℕ) :
    (flushOf s cid owner port_id n refused).accepted p = s.accepted p ++
      if port_id = p then (List.range (n - refused)).filterMap (s.buf cid port_id).tx_burst else [] := by
  unfold State.accepted
  rw [sent_flushOf, List.filter_append, List.map_append]
  congr 1
  split
  · next hp =>
    rw [List.filter_eq_self.2, List.map_map]
    · exact List.map_id _
    · intro e he
      obtain ⟨m, -, rfl⟩ := List.mem_map.1 he
      simpa using hp
  · next hp =>
    rw [List.filter_eq_nil_iff.2, List.map_nil]
    intro e he
    obtain ⟨m, -, rfl⟩ := List.mem_map.1 he
    simpa using hp

/-- A flush of a whole buffer, whoever's packets it frees. -/
theorem Outgoing.flushOf (h : Outgoing s cid p done) {n : ℕ} (hn : (s.buf cid port_id).tx_len = n)
    (owner refused : ℕ) : Outgoing (flushOf s cid owner port_id n refused) cid p done := by
  by_cases hp : port_id = p
  · subst hp
    have hbuf : (Worker.flushOf s cid owner port_id n refused).buf cid port_id =
        { s.buf cid port_id with tx_len := 0 } := by
      rw [buf_flushOf, if_pos ⟨rfl, rfl⟩]
    refine ⟨?_, ?_⟩
    · rw [hbuf]
      exact Nat.zero_le _
    · have hoffered : ((List.range (n - refused)).filterMap (s.buf cid port_id).tx_burst).Sublist
          (s.buf cid port_id).waiting := by
        unfold QueuesBuf.waiting
        rw [hn]
        exact (List.range_sublist.2 (Nat.sub_le _ _)).filterMap _
      rw [accepted_flushOf, if_pos rfl, hbuf]
      refine List.Sublist.trans ?_ h.order
      simpa [QueuesBuf.waiting] using (List.Sublist.refl (s.accepted port_id)).append hoffered
  · refine h.congr ?_ ?_
    · rw [buf_flushOf, if_neg fun hc => hp hc.2.symm]
    · rw [accepted_flushOf, if_neg hp, List.append_nil]

theorem Outgoing.makeRoom (h : Outgoing s cid p done) (port_id refused : ℕ) :
    Outgoing (makeRoom s cid port_id refused) cid p done := by
  unfold Worker.makeRoom
  split
  · next hfull => exact h.flushOf hfull _ _
  · exact h

/-- **The write index.** A packet is written below the end of the buffer. -/
theorem makeRoom_lt (h : (s.buf cid port_id).tx_len ≤ maxPktBurst) (refused : ℕ) :
    ((makeRoom s cid port_id refused).buf cid port_id).tx_len < maxPktBurst := by
  unfold makeRoom
  split
  · rw [buf_flushOf, if_pos ⟨rfl, rfl⟩]
    exact Nat.succ_pos _
  · omega

theorem accepted_setBuf (b : QueuesBuf) : (s.setBuf cid port_id b).accepted p = s.accepted p := rfl

theorem Outgoing.send (h : Outgoing s cid p done) (port_id : ℕ) (m : Mbuf) (refused : ℕ) :
    Outgoing (sendPackets s port_id cid m refused) cid p
      (done ++ if port_id = p then [m] else []) := by
  have hroom := h.makeRoom port_id refused
  rw [sendPackets_makeRoom]
  by_cases hp : port_id = p
  · subst hp
    have hbuf : ((Worker.makeRoom s cid port_id refused).setBuf cid port_id
        (((Worker.makeRoom s cid port_id refused).buf cid port_id).push m)).buf cid port_id =
          ((Worker.makeRoom s cid port_id refused).buf cid port_id).push m := by
      rw [buf_setBuf, if_pos ⟨rfl, rfl⟩]
    refine ⟨?_, ?_⟩
    · rw [hbuf]
      exact makeRoom_lt h.len refused
    · rw [hbuf, waiting_push, accepted_setBuf, ← List.append_assoc, if_pos rfl]
      exact hroom.order.append (List.Sublist.refl _)
  · rw [if_neg hp, List.append_nil]
    refine hroom.congr ?_ (accepted_setBuf _)
    rw [buf_setBuf, if_neg fun hc => hp hc.2.symm]

theorem Outgoing.step (h : Outgoing s cid p done) (o : Op) :
    Outgoing (o.apply cid s) cid p (done ++ sentTo p [o]) := by
  cases o with
  | receive ms =>
    have hnone : sentTo p [.receive ms] = [] := rfl
    rw [hnone, List.append_nil]
    exact h.congr rfl rfl
  | free m =>
    have hnone : sentTo p [.free m] = [] := rfl
    rw [hnone, List.append_nil]
    exact h.congr rfl rfl
  | send port_id m refused =>
    have hsent : sentTo p [.send port_id m refused] = if port_id = p then [m] else [] := by
      by_cases hp : port_id = p
      · simp [sentTo, hp]
      · simp [sentTo, hp]
    rw [hsent]
    exact h.send port_id m refused
  | flush port_id refused =>
    have hnone : sentTo p [.flush port_id refused] = [] := rfl
    rw [hnone, List.append_nil]
    show Outgoing (flushPort cid port_id refused s) cid p done
    rw [flushPort_eq]
    exact h.flushOf rfl 0 refused

/-! ### Runs -/

theorem outgoing_launchWorker (port_nums queue_id : ℕ → ℕ) (cid p : ℕ) :
    Outgoing (launchWorker port_nums queue_id) cid p [] :=
  ⟨Nat.zero_le _, List.Sublist.refl _⟩

theorem Outgoing.steps (os : List Op) (h : Outgoing s cid p done) :
    Outgoing (os.foldl (Op.apply cid) s) cid p (done ++ sentTo p os) := by
  induction os generalizing s done with
  | nil => simpa [sentTo] using h
  | cons o os ih =>
    have := ih (h.step o)
    rwa [List.append_assoc, ← sentTo_append] at this

/-- **Bounds and order.** In every run of calls on a core, at every step of every call: no transmit
buffer is longer than 128, the next packet is written below 128, and the packets the NIC has taken for
a port are a subsequence of those sent to it so far. Over the whole run, these are the packets directed
to the port in the order in which they were processed. -/
theorem run_ordered (port_nums queue_id : ℕ → ℕ) (cid : ℕ) (calls : List CoreCall)
    (hok : ∀ c ∈ calls, c.Ok (port_nums cid)) :
    let ops := calls.flatMap (CoreCall.ops (port_nums cid))
    let init := launchWorker port_nums queue_id
    calls.foldl (CoreCall.run cid) init = ops.foldl (Op.apply cid) init ∧
    (∀ before after, ops = before ++ after →
      let s := before.foldl (Op.apply cid) init
      (∀ p, (s.buf cid p).tx_len ≤ maxPktBurst) ∧
      (∀ port_id m refused rest, after = .send port_id m refused :: rest →
        ((makeRoom s cid port_id refused).buf cid port_id).tx_len < maxPktBurst) ∧
      ∀ p, (s.accepted p).Sublist (sentTo p before)) ∧
    ∀ p, sentTo p ops = calls.flatMap (CoreCall.directed (port_nums cid) p) := by
  intro ops init
  refine ⟨run_ops calls init rfl, ?_, ?_⟩
  · intro before after _ s
    have hout : ∀ p, Outgoing s cid p (sentTo p before) := by
      intro p
      simpa using (outgoing_launchWorker port_nums queue_id cid p).steps before
    refine ⟨fun p => (hout p).len, ?_, ?_⟩
    · intro port_id m refused rest _
      exact makeRoom_lt (hout port_id).len refused
    · intro p
      exact (List.sublist_append_left _ _).trans (hout p).order
  · intro p
    show sentTo p (calls.flatMap _) = _
    rw [sentTo_flatMap]
    exact List.flatMap_congr fun c hc => sentTo_ops p (hok c hc)

/-- A packet from elsewhere, then one from each of two ports, all to port 1. -/
def threeToOne : List CoreCall :=
  [.send 1 7 0, .process fun p => { rx := [⟨p + 8, [ignorePackets, 1], 0⟩], refused := p }]

theorem run_ordered_threeToOne :
    ((threeToOne.foldl (CoreCall.run 0) (launchWorker (fun _ => 2) fun cid => cid)).accepted 1).Sublist
      [7, 8, 9] := by
  have hok : ∀ c ∈ threeToOne, c.Ok 2 := by
    intro c hc
    rcases List.mem_pair.1 hc with rfl | rfl
    · exact Nat.one_lt_two
    · intro p _
      simp [maxPktBurst, ignorePackets, dropPackets]
  obtain ⟨hops, hsteps, hdirected⟩ :=
    run_ordered (fun _ => 2) (fun cid => cid) 0 threeToOne hok
  have hdir : threeToOne.flatMap (CoreCall.directed 2 1) = [7, 8, 9] := by decide
  rw [hops, ← hdir, ← hdirected 1]
  exact (hsteps _ [] (List.append_nil _).symm).2.2 1

end FlowQoS.Worker
