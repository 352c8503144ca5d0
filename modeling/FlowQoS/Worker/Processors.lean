import FlowQoS.Fault
import FlowQoS.Lib.Trace
import FlowQoS.Worker.Order

/-!
# The registered packet processors (`register_packet_processor`)

`general_pkt_processor` gives every packet to all registered processors, one after the other, and does with it
what the last of them says that does not ignore it. Here a processor is a function of the packet and of the
state of the application, so that what it answers is no longer part of the input of a call (`poll`).

A property of the application that every packet keeps (`Keeps`) holds after every run of calls and of what the
other general processors do. A core then treats the packets in the order in which they come, and those of a
class that are all directed to one port leave by this port alone and in this order (`MachineInv.in_order`).
-/

namespace FlowQoS.Worker

open Lib

def maxProcessorNum : ℕ := 30

variable {ε π τ κ : Type}

/-- `packet_processor`: the action for a packet, and the packet and the state it leaves. The first argument is
what its environment answers. -/
abbrev PacketProcessor (ε π τ : Type) := ε → π → τ → Except Fault (ℤ × π × τ)

/-- `register_packet_processor`. -/
def registerPacketProcessor (packet_processor_arr : List (PacketProcessor ε π τ)) (p : PacketProcessor ε π τ) :
    ℤ × List (PacketProcessor ε π τ) :=
  if packet_processor_arr.length = maxProcessorNum then (0, packet_processor_arr)
  else (1, packet_processor_arr ++ [p])

/-- A packet of a burst: its buffer, what is in it, what the environment of the processors answers, and how many
of the packets it is offered the NIC refuses if this packet finds its transmit buffer full. -/
structure Arrival (ε π : Type) where
  m : Mbuf
  packet : π
  env : ε
  refused : ℕ := 0

structure ArrivalBurst (ε π : Type) where
  rx : List (Arrival ε π) := []
  refused : ℕ := 0

/-- What has been done with a packet. -/
structure Treated (π : Type) where
  m : Mbuf
  before : π
  after : π
  action : ℤ

/-- The worker, the application, and the packets that have been treated. -/
structure Machine (π τ : Type) where
  worker : State
  app : τ
  treated : List (Treated π) := []

/-- The loop over the processors: what they answer, and the packet and the state they leave. -/
def runProcessors : List (PacketProcessor ε π τ) → ε → π → τ → Except Fault (List ℤ × π × τ)
  | [], _, x, t => return ([], x, t)
  | p :: ps, env, x, t => do
    let (action, x, t) ← p env x t
    let (actions, x, t) ← runProcessors ps env x t
    return (action :: actions, x, t)

/-- The body of the loop over a burst. -/
def treat (packet_processor_arr : List (PacketProcessor ε π τ)) (cid : ℕ) (s : Machine π τ) (x : Arrival ε π) :
    Except Fault (Machine π τ) := do
  let (actions, packet, app) ← runProcessors packet_processor_arr x.env x.packet s.app
  return {
    worker := rxStep cid s.worker ⟨x.m, actions, x.refused⟩
    app := app
    treated := s.treated ++ [⟨x.m, x.packet, packet, actionOf actions⟩] }

/-- The body of the loop over the ports. -/
def pollPort (packet_processor_arr : List (PacketProcessor ε π τ)) (cid : ℕ) (input : ℕ → ArrivalBurst ε π)
    (s : Machine π τ) (port_id : ℕ) : Except Fault (Machine π τ) := do
  let s ← (input port_id).rx.foldlM (treat packet_processor_arr cid)
    { s with worker := s.worker.receive cid ((input port_id).rx.map Arrival.m) }
  return { s with worker := flushPort cid port_id (input port_id).refused s.worker }

/-- `general_pkt_processor`. -/
def poll (packet_processor_arr : List (PacketProcessor ε π τ)) (cid : ℕ) (input : ℕ → ArrivalBurst ε π)
    (s : Machine π τ) : Except Fault (Machine π τ) :=
  (List.range (s.worker.lcore_conf cid).port_num).foldlM (pollPort packet_processor_arr cid input) s

/-- The buffers of a call, in the order in which they are received. -/
def arrivedIn (port_num : ℕ) (input : ℕ → ArrivalBurst ε π) : List Mbuf :=
  (List.range port_num).flatMap fun p => (input p).rx.map Arrival.m

/-- The packets that have been directed to a port, in their order. -/
def Machine.directed (s : Machine π τ) (p : ℕ) : List Mbuf :=
  (s.treated.filter fun t => t.action = (p : ℤ)).map Treated.m

/-- The packets of a class, in their order. -/
def Machine.ofClass (s : Machine π τ) (C : Treated π → Prop) [DecidablePred C] : List Mbuf :=
  (s.treated.filter fun t => C t).map Treated.m

/-! ### The worker below -/

theorem received_setBuf (s : State) (cid port_id : ℕ) (b : QueuesBuf) :
    (s.setBuf cid port_id b).received = s.received := rfl

/-- What a step receives. -/
def Op.arrivals : Op → List Mbuf
  | .receive ms => ms
  | _ => []

theorem received_apply (s : State) (cid : ℕ) (o : Op) :
    (o.apply cid s).received = s.received ++ o.arrivals := by
  cases o with
  | receive ms => rfl
  | free m => exact (List.append_nil _).symm
  | send port_id m refused =>
    show (sendPackets s port_id cid m refused).received = s.received ++ []
    rw [List.append_nil, sendPackets_makeRoom, received_setBuf]
    unfold makeRoom
    split
    · exact received_flushOf _ _ _ _ _
    · rfl
  | flush port_id refused =>
    show (flushPort cid port_id refused s).received = s.received ++ []
    rw [List.append_nil, flushPort_eq, received_flushOf]

/-- What holds of the worker while the packets of the list `rest` have been received and not yet treated. -/
structure Transmits (cid port_num : ℕ) (rest : List Mbuf) (s : Machine π τ) : Prop where
  port_num : (s.worker.lcore_conf cid).port_num = port_num
  received : s.worker.received = s.treated.map Treated.m ++ rest
  action : ∀ t ∈ s.treated, dropPackets ≤ t.action
  out : ∀ p, Outgoing s.worker cid p (s.directed p)

variable {cid port_num : ℕ} {s s' : Machine π τ} {rest : List Mbuf}
  {packet_processor_arr : List (PacketProcessor ε π τ)} {input : ℕ → ArrivalBurst ε π}

/-- A step of the worker that treats no packet. -/
theorem Transmits.idle (h : Transmits cid port_num rest s) (o : Op) (hsend : ∀ p, sentTo p [o] = []) :
    Transmits cid port_num (rest ++ o.arrivals) { s with worker := o.apply cid s.worker } where
  port_num := by
    rw [← h.port_num]
    exact port_num_apply o cid
  received := by
    show (o.apply cid s.worker).received = s.treated.map Treated.m ++ (rest ++ o.arrivals)
    rw [received_apply, h.received, List.append_assoc]
  action := h.action
  out p := by
    have hstep := (h.out p).step o
    rwa [hsend p, List.append_nil] at hstep

/-- The step for the next packet. -/
theorem Transmits.treat {x : RxPacket} (h : Transmits cid port_num (x.m :: rest) s)
    (hact : dropPackets ≤ actionOf x.actions) (before after : π) (app : τ) :
    Transmits cid port_num rest
      { worker := rxStep cid s.worker x
        app := app
        treated := s.treated ++ [⟨x.m, before, after, actionOf x.actions⟩] } where
  port_num := by
    rw [← h.port_num, rxStep_op]
    exact port_num_apply _ cid
  received := by
    have hnone : (rxOp x).arrivals = [] := by
      unfold rxOp
      split <;> rfl
    show (rxStep cid s.worker x).received = _
    rw [rxStep_op, received_apply, hnone, h.received]
    simp
  action t ht := by
    rcases List.mem_append.1 ht with ht | ht
    · exact h.action t ht
    · rw [List.mem_singleton] at ht
      subst ht
      exact hact
  out p := by
    have hstep := (h.out p).step (rxOp x)
    rw [← rxStep_op, sentTo_rxOp p hact] at hstep
    have hdir : Machine.directed
        { worker := rxStep cid s.worker x
          app := app
          treated := s.treated ++ [⟨x.m, before, after, actionOf x.actions⟩] } p =
        s.directed p ++ if actionOf x.actions = p then [x.m] else [] := by
      unfold Machine.directed
      rw [List.filter_append, List.map_append]
      by_cases hp : actionOf x.actions = p
      · simp [hp]
      · simp [hp]
    rw [hdir]
    exact hstep

/-! ### The application above -/

/-- Where `R` holds of the application, a packet that comes in by one of the ports gets an action, and `R` still
holds after it; so does `Q`, of the application and of the packets that have been treated. -/
def Keeps (packet_processor_arr : List (PacketProcessor ε π τ)) (comes : ℕ → π → Prop) (port_num : ℕ)
    (R : τ → Prop) (Q : τ → List (Treated π) → Prop) : Prop :=
  ∀ (x : Arrival ε π) (t t' : τ) (ts : List (Treated π)) (actions : List ℤ) (packet : π) (p : ℕ), p < port_num →
    comes p x.packet → R t → Q t ts →
    runProcessors packet_processor_arr x.env x.packet t = .ok (actions, packet, t') →
      dropPackets ≤ actionOf actions ∧ R t' ∧ Q t' (ts ++ [⟨x.m, x.packet, packet, actionOf actions⟩])

/-- What the driver writes into a packet goes with the port that it has come in by. -/
def OnPorts (comes : ℕ → π → Prop) (port_num : ℕ) (input : ℕ → ArrivalBurst ε π) : Prop :=
  ∀ p < port_num, ∀ x ∈ (input p).rx, comes p x.packet

variable {comes : ℕ → π → Prop} {R : τ → Prop} {Q : τ → List (Treated π) → Prop}

/-- The loop over a burst. -/
theorem treat_loop (hkeeps : Keeps packet_processor_arr comes port_num R Q) {rx : List (Arrival ε π)}
    {p : ℕ} (hp : p < port_num) (hcomes : ∀ x ∈ rx, comes p x.packet)
    (h : Transmits cid port_num (rx.map Arrival.m) s) (hR : R s.app) (hQ : Q s.app s.treated)
    (hrun : rx.foldlM (treat packet_processor_arr cid) s = .ok s') :
    Transmits cid port_num [] s' ∧ R s'.app ∧ Q s'.app s'.treated ∧
      s'.treated.map Treated.m = s.treated.map Treated.m ++ rx.map Arrival.m := by
  induction rx generalizing s with
  | nil =>
    cases hrun
    exact ⟨h, hR, hQ, (List.append_nil _).symm⟩
  | cons x rx ih =>
    rw [List.foldlM_cons] at hrun
    obtain ⟨s₁, htreat, hrun⟩ := bind_eq_ok.1 hrun
    obtain ⟨⟨actions, packet, app⟩, hproc, htreat⟩ := bind_eq_ok.1 htreat
    cases htreat
    obtain ⟨hact, hR₁, hQ₁⟩ :=
      hkeeps x s.app app s.treated actions packet p hp (hcomes x List.mem_cons_self) hR hQ hproc
    obtain ⟨h', hR', hQ', hms⟩ := ih (fun y hy => hcomes y (List.mem_cons_of_mem x hy))
      (Transmits.treat (x := ⟨x.m, actions, x.refused⟩) h hact x.packet packet app) hR₁ hQ₁ hrun
    refine ⟨h', hR', hQ', hms.trans ?_⟩
    simp

/-- The turn for a port. -/
theorem pollPort_inv (hkeeps : Keeps packet_processor_arr comes port_num R Q) {p : ℕ}
    (hp : p < port_num) (hcomes : ∀ x ∈ (input p).rx, comes p x.packet) (h : Transmits cid port_num [] s)
    (hR : R s.app) (hQ : Q s.app s.treated) (hrun : pollPort packet_processor_arr cid input s p = .ok s') :
    Transmits cid port_num [] s' ∧ R s'.app ∧ Q s'.app s'.treated ∧
      s'.treated.map Treated.m = s.treated.map Treated.m ++ (input p).rx.map Arrival.m := by
  obtain ⟨s₁, hloop, hrun⟩ := bind_eq_ok.1 hrun
  cases hrun
  have hrx := h.idle (.receive ((input p).rx.map Arrival.m)) fun _ => rfl
  obtain ⟨h₁, hR₁, hQ₁, hms⟩ := treat_loop hkeeps hp hcomes hrx hR hQ hloop
  exact ⟨h₁.idle (.flush p (input p).refused) fun _ => rfl, hR₁, hQ₁, hms⟩

/-- **A call.** -/
theorem poll_inv (hkeeps : Keeps packet_processor_arr comes port_num R Q) (hcomes : OnPorts comes port_num input)
    (h : Transmits cid port_num [] s) (hR : R s.app) (hQ : Q s.app s.treated)
    (hrun : poll packet_processor_arr cid input s = .ok s') :
    Transmits cid port_num [] s' ∧ Q s'.app s'.treated ∧
      s'.treated.map Treated.m = s.treated.map Treated.m ++ arrivedIn port_num input := by
  unfold poll at hrun
  rw [h.port_num] at hrun
  have key : ∀ (ps : List ℕ) (s : Machine π τ), (∀ p ∈ ps, p < port_num) → Transmits cid port_num [] s →
      R s.app → Q s.app s.treated → ps.foldlM (pollPort packet_processor_arr cid input) s = .ok s' →
      Transmits cid port_num [] s' ∧ Q s'.app s'.treated ∧ s'.treated.map Treated.m =
        s.treated.map Treated.m ++ ps.flatMap fun p => (input p).rx.map Arrival.m := by
    intro ps
    induction ps with
    | nil =>
      intro s _ h _ hQ hrun
      cases hrun
      exact ⟨h, hQ, (List.append_nil _).symm⟩
    | cons p ps ih =>
      intro s hps h hR hQ hrun
      rw [List.foldlM_cons] at hrun
      obtain ⟨s₁, hturn, hrun⟩ := bind_eq_ok.1 hrun
      have hp := hps p List.mem_cons_self
      obtain ⟨h₁, hR₁, hQ₁, hms₁⟩ :=
        pollPort_inv hkeeps hp (hcomes p hp) h hR hQ hturn
      obtain ⟨h', hQ', hms⟩ := ih s₁ (fun q hq => hps q (List.mem_cons_of_mem p hq)) h₁ hR₁ hQ₁ hrun
      refine ⟨h', hQ', ?_⟩
      rw [hms, hms₁, List.flatMap_cons, List.append_assoc]
  exact key _ s (fun p hp => List.mem_range.1 hp) h hR hQ hrun

/-! ### Runs -/

/-- A call of `general_pkt_processor`, or something else that the application does. -/
inductive MachineEvent (ε π κ : Type) where
  | poll (input : ℕ → ArrivalBurst ε π)
  | general (e : κ)

/-- One event. Every reception is in a buffer of its own, and `R` holds at every call; `G` is what else can happen
to the application. -/
def MachineStep (packet_processor_arr : List (PacketProcessor ε π τ)) (cid : ℕ) (comes : ℕ → π → Prop)
    (R : τ → Prop) (G : τ → κ → τ → Prop) (s : Machine π τ) : MachineEvent ε π κ → Machine π τ → Prop
  | .poll input, s' => R s.app ∧ OnPorts comes (s.worker.lcore_conf cid).port_num input ∧
      (s.worker.received ++ arrivedIn (s.worker.lcore_conf cid).port_num input).Nodup ∧
      poll packet_processor_arr cid input s = .ok s'
  | .general e, s' => ∃ app, G s.app e app ∧ s' = { s with app := app }

/-- The state after `launch_worker`. -/
def Machine.launch (port_nums queue_id : ℕ → ℕ) (app : τ) : Machine π τ where
  worker := launchWorker port_nums queue_id
  app := app

structure MachineInv (cid port_num : ℕ) (Q : τ → List (Treated π) → Prop) (s : Machine π τ) : Prop where
  transmits : Transmits cid port_num [] s
  nodup : (s.treated.map Treated.m).Nodup
  app : Q s.app s.treated

theorem MachineInv.launch {port_nums queue_id : ℕ → ℕ} {app : τ} (h : Q app []) :
    MachineInv cid (port_nums cid) Q (Machine.launch port_nums queue_id app) where
  transmits :=
    { port_num := rfl
      received := rfl
      action := fun t ht => by cases ht
      out := fun p => outgoing_launchWorker port_nums queue_id cid p }
  nodup := List.nodup_nil
  app := h

theorem MachineInv.step {G : τ → κ → τ → Prop} (hkeeps : Keeps packet_processor_arr comes port_num R Q)
    (hgeneral : ∀ t e t' ts, Q t ts → G t e t' → Q t' ts) {e : MachineEvent ε π κ}
    (h : MachineInv cid port_num Q s) (hs : MachineStep packet_processor_arr cid comes R G s e s') :
    MachineInv cid port_num Q s' := by
  cases e with
  | poll input =>
    obtain ⟨hR, hcomes, hnodup, hrun⟩ := hs
    rw [h.transmits.port_num] at hcomes hnodup
    obtain ⟨h', hQ', hms⟩ := poll_inv hkeeps hcomes h.transmits hR h.app hrun
    refine ⟨h', ?_, hQ'⟩
    rw [hms]
    rwa [h.transmits.received, List.append_nil] at hnodup
  | general e =>
    obtain ⟨app, hG, rfl⟩ := hs
    have ht := h.transmits
    exact ⟨⟨ht.port_num, ht.received, ht.action, ht.out⟩, h.nodup, hgeneral _ e _ _ h.app hG⟩

/-- **The invariant rule of the machine.** -/
theorem run_machine {G : τ → κ → τ → Prop} {port_nums queue_id : ℕ → ℕ} {app : τ}
    (hkeeps : Keeps packet_processor_arr comes (port_nums cid) R Q)
    (hgeneral : ∀ t e t' ts, Q t ts → G t e t' → Q t' ts) (hinit : Q app []) {es : List (MachineEvent ε π κ)}
    (hr : Trace (MachineStep packet_processor_arr cid comes R G) (Machine.launch port_nums queue_id app) es s) :
    MachineInv cid (port_nums cid) Q s :=
  Trace.inv (P := MachineInv cid (port_nums cid) Q) (fun _ _ _ h hs => h.step hkeeps hgeneral hs) hr
    (MachineInv.launch hinit)

/-! ### Classes of packets -/

/-- A packet has been treated once. -/
theorem MachineInv.unique (h : MachineInv cid port_num Q s) {t t' : Treated π} (ht : t ∈ s.treated)
    (ht' : t' ∈ s.treated) (hm : t.m = t'.m) : t = t' :=
  List.inj_on_of_nodup_map h.nodup ht ht' hm

theorem MachineInv.mem_ofClass (h : MachineInv cid port_num Q s) {C : Treated π → Prop} [DecidablePred C]
    {t : Treated π} (ht : t ∈ s.treated) : t.m ∈ s.ofClass C ↔ C t := by
  unfold Machine.ofClass
  constructor
  · intro hmem
    obtain ⟨t', ht', hm⟩ := List.mem_map.1 hmem
    obtain ⟨htr', hC⟩ := List.mem_filter.1 ht'
    rw [← h.unique htr' ht hm]
    simpa using hC
  · intro hC
    exact List.mem_map.2 ⟨t, List.mem_filter.2 ⟨ht, by simpa using hC⟩, rfl⟩

/-- **The order of a class.** Packets that are all directed to one port leave by no other, and by this one in
the order in which they came. -/
theorem MachineInv.in_order (h : MachineInv cid port_num Q s) (C : Treated π → Prop) [DecidablePred C] {p : ℕ}
    (hp : ∀ t ∈ s.treated, C t → t.action = p) (q : ℕ) :
    ((s.worker.accepted q).filter fun m => m ∈ s.ofClass C).Sublist (if q = p then s.ofClass C else []) := by
  have hout : (s.worker.accepted q).Sublist (s.directed q) :=
    (List.sublist_append_left _ _).trans (h.transmits.out q).order
  refine (hout.filter _).trans ?_
  have hclass : (s.directed q).filter (fun m => m ∈ s.ofClass C) =
      (s.treated.filter fun t => C t ∧ t.action = (q : ℤ)).map Treated.m := by
    unfold Machine.directed
    rw [List.filter_map, List.filter_filter]
    congr 1
    refine List.filter_congr fun t ht => ?_
    simp [h.mem_ofClass ht]
  rw [hclass]
  split
  · next hq =>
    subst hq
    have heq : (s.treated.filter fun t => C t ∧ t.action = (q : ℤ)) = s.treated.filter fun t => C t := by
      refine List.filter_congr fun t ht => ?_
      simpa using hp t ht
    rw [heq]
    exact List.Sublist.refl _
  · next hq =>
    rw [List.filter_eq_nil_iff.2]
    · exact List.Sublist.refl _
    · intro t ht hC
      simp only [decide_eq_true_eq] at hC
      have := hp t ht hC.1
      omega

end FlowQoS.Worker
