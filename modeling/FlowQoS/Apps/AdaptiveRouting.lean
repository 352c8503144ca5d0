import FlowQoS.Conntrack.Affinity
import FlowQoS.Conntrack.Dealings
import FlowQoS.Pipe.Format

/-!
# Adaptive routing (`flowQoS_adaptive_routing.c`)

The switches spread VXLAN connections over the paths of the network by their source port. When a connection
opens, the application sends a probe over each of four paths, that is from each of four source ports, and
gives the connection the source port of the probe that is answered first.

A probe carries the number of the connection it is for, and comes back with it. So the answers to the probes
of connections before, which arrive late, are told apart (`run_paths`). With the first answer, however, the
packets that were received behind it are forgotten, and their buffers with them.
-/

namespace FlowQoS.AdaptiveRouting

open Pipe Conntrack Lib

def HOST_PORT : ℕ := 0
def PROBE_PATH_AMOUNT : ℕ := 4

/-- The port that a VXLAN packet goes to, and the one that a probe comes back to. -/
def VXLAN_PORT : UInt16 := 4789
def ANSWER_PORT : UInt16 := 4788

/-- A probe, as far as the network gives it back, and beside it the connection it was sent for. -/
structure Probe where
  src_port : UInt16
  FlowID : UInt64
  match_ : FlowQoSMatch

/-- A packet that is received while the application waits. -/
structure Received where
  ipv4 : Bool := true
  next_proto_id : UInt8 := 17
  dst_port : UInt16
  src_port : UInt16
  FlowID : UInt64

/-- The state of the application. Beside the number of the last connection there are the probes that have been
sent, and how many packet buffers were taken, by the application or for it, and how many it gave away. -/
structure ArAttr where
  flowID : UInt64 := 0
  sent : List Probe := []
  taken : ℕ := 0
  released : ℕ := 0

/-- What the environment answers in a call: whether the pool has the buffers, how many of the probes the driver
takes, the readings of the timestamp counter, and what is received after each one. -/
structure ArEnv where
  alloc : Bool
  nb_tx : ℕ
  start : UInt64
  tsc_hz : UInt64
  polls : List (UInt64 × List Received)

/-- The probes of a connection. -/
def probes (match_ : FlowQoSMatch) (flowID : UInt64) (count : ℕ) : List Probe :=
  (List.range count).map fun p =>
    { src_port := beToCpu16 (beToCpu16 match_.src_port + p.toUInt16), FlowID := flowID, match_ := match_ }

/-- The packet is an answer to a probe. -/
def Received.isAnswer (m : Received) : Bool :=
  m.ipv4 && m.next_proto_id == 17 && m.dst_port == beToCpu16 ANSWER_PORT

/-- The packets of a burst one after the other: the answer, and how many buffers have been freed. -/
def burstLoop (flowID : UInt64) : List Received → Option UInt16 × ℕ
  | [] => (none, 0)
  | m :: rest =>
    if m.isAnswer && m.FlowID == flowID then (some m.src_port, 1)
    else
      let (res, freed) := burstLoop flowID rest
      (res, freed + 1)

/-- The application waits: the answer, and how many buffers have been received and how many freed. -/
def pollLoop (flowID start gap : UInt64) : List (UInt64 × List Received) → UInt16 × ℕ × ℕ
  | [] => (0, 0, 0)
  | (rdtsc, burst) :: polls =>
    if rdtsc - start < gap then
      let mbufs := burst.take PROBE_PATH_AMOUNT
      match burstLoop flowID mbufs with
      | (some res, freed) => (res, mbufs.length, freed)
      | (none, freed) =>
        let (res, received, freed') := pollLoop flowID start gap polls
        (res, mbufs.length + received, freed + freed')
    else (0, 0, 0)

/-- The probes that have been sent after a call: those that the driver has taken are new. -/
def sentBy (env : ArEnv) (newEntry : FlowQoSEntry) (attr : ArAttr) : List Probe :=
  attr.sent ++ (probes newEntry.match_ (attr.flowID + 1)
    (if env.alloc then PROBE_PATH_AMOUNT else 0)).take env.nb_tx

/-- `adaptive_routing`. -/
def adaptiveRouting (env : ArEnv) (newEntry : FlowQoSEntry) (attr : ArAttr) : UInt16 × ArAttr :=
  let count := if env.alloc then PROBE_PATH_AMOUNT else 0
  let flowID := attr.flowID + 1
  let mbufs := probes newEntry.match_ flowID count
  let (res, received, freed) := pollLoop flowID env.start (env.tsc_hz / 100) env.polls
  -- the driver frees what it has sent, and the application what could not be sent
  (res, { flowID := flowID
          sent := sentBy env newEntry attr
          taken := attr.taken + mbufs.length + received
          released := attr.released + (mbufs.take env.nb_tx).length + (mbufs.drop env.nb_tx).length + freed })

/-- `newConn_handler`. -/
def newConnHandler (env : ArEnv) (newEntry : FlowQoSEntry) (attr : ArAttr) :
    Except Fault (ℤ × FlowQoSEntry × ArAttr) :=
  match newEntry.pipe with
  | none => .error .nullPointer
  | some pipe =>
    if pipe.port_id = HOST_PORT ∧ newEntry.match_.dst_port = beToCpu16 VXLAN_PORT then
      let newEntry := { newEntry with expireTime := 60 }
      let (bestPath, attr) := adaptiveRouting env newEntry attr
      if bestPath ≠ 0 then
        .ok ((pipe.port_id ^^^ 1 : ℕ),
          { newEntry with action := { newEntry.action with src_port := bestPath } }, attr)
      else .ok (ignorePackets, newEntry, attr)
    else .ok (ignorePackets, newEntry, attr)

/-- The application on a core. -/
def routing (maxConntrack GAP : ℕ) : Params ArAttr ArEnv where
  newConn_handler := some newConnHandler
  agingConn_handler := none
  maxConntrack := maxConntrack
  GAP := GAP

/-- The port that `main` gives to `flowQoS_conntrack_init_port`, with its action flags. -/
def arPorts : List (ℕ × UInt64) := [(HOST_PORT, SPORT ||| AGING)]

variable {env : ArEnv} {e e' : FlowQoSEntry} {attr attr' : ArAttr} {ret : ℤ} {flowID start gap : UInt64}

/-! ### The answer -/

/-- What is found in a burst is an answer with the number of the connection, and the buffers up to it have been
freed. -/
theorem burstLoop_some {ms : List Received} {res : UInt16} {freed : ℕ}
    (h : burstLoop flowID ms = (some res, freed)) :
    (∃ m ∈ ms, m.isAnswer ∧ m.FlowID = flowID ∧ m.src_port = res) ∧ 1 ≤ freed ∧ freed ≤ ms.length := by
  induction ms generalizing freed with
  | nil => cases h
  | cons m rest ih =>
    unfold burstLoop at h
    split at h
    · next hm =>
      rw [Bool.and_eq_true, beq_iff_eq] at hm
      cases h
      exact ⟨⟨m, List.mem_cons_self, hm.1, hm.2, rfl⟩, by simp⟩
    · cases hrest : burstLoop flowID rest with
      | mk res' freed' =>
        rw [hrest] at h
        cases h
        obtain ⟨⟨m', hmem, hm'⟩, -, hle⟩ := ih hrest
        refine ⟨⟨m', List.mem_cons_of_mem _ hmem, hm'⟩, by omega, ?_⟩
        rw [List.length_cons]
        omega

/-- Where there is no answer in a burst, all of its buffers are freed. -/
theorem burstLoop_none {ms : List Received} {freed : ℕ} (h : burstLoop flowID ms = (none, freed)) :
    freed = ms.length := by
  induction ms generalizing freed with
  | nil =>
    cases h
    rfl
  | cons m rest ih =>
    unfold burstLoop at h
    split at h
    · cases h
    · cases hrest : burstLoop flowID rest with
      | mk res' freed' =>
        rw [hrest] at h
        cases h
        rw [List.length_cons, ih hrest]

/-- **The answer** that the application waits for has the number of the connection. Three buffers at most, those
behind the answer, are not freed. -/
theorem pollLoop_answer {polls : List (UInt64 × List Received)} {res : UInt16} {received freed : ℕ}
    (h : pollLoop flowID start gap polls = (res, received, freed)) :
    (res ≠ 0 → ∃ poll ∈ polls, ∃ m ∈ poll.2, m.isAnswer ∧ m.FlowID = flowID ∧ m.src_port = res) ∧
      freed ≤ received ∧ received ≤ freed + 3 := by
  induction polls generalizing received freed with
  | nil =>
    cases h
    exact ⟨fun hne => absurd rfl hne, by omega, by omega⟩
  | cons poll polls ih =>
    obtain ⟨rdtsc, burst⟩ := poll
    have hlen : (burst.take PROBE_PATH_AMOUNT).length ≤ 4 := by
      rw [List.length_take]
      exact Nat.min_le_left _ _
    unfold pollLoop at h
    split at h
    · simp only at h
      split at h
      · next res' freed' hburst =>
        cases h
        obtain ⟨⟨m, hmem, hm⟩, hpos, hle⟩ := burstLoop_some hburst
        exact ⟨fun _ => ⟨_, List.mem_cons_self, m, List.mem_of_mem_take hmem, hm⟩, hle, by omega⟩
      · next freed' hburst =>
        have hall := burstLoop_none hburst
        cases hrest : pollLoop flowID start gap polls with
        | mk res' rest =>
          obtain ⟨received', freed''⟩ := rest
          rw [hrest] at h
          simp only [Prod.mk.injEq] at h
          obtain ⟨rfl, rfl, rfl⟩ := h
          obtain ⟨hans, hle, hge⟩ := ih hrest
          refine ⟨fun hne => ?_, by omega, by omega⟩
          obtain ⟨poll, hpoll, hm⟩ := hans hne
          exact ⟨poll, List.mem_cons_of_mem _ hpoll, hm⟩
    · cases h
      exact ⟨fun hne => absurd rfl hne, by omega, by omega⟩

/-! ### The handler -/

/-- The probes of a call. -/
theorem mem_probes {match_ : FlowQoSMatch} {count : ℕ} {q : Probe} (hcount : count ≤ PROBE_PATH_AMOUNT)
    (h : q ∈ probes match_ flowID count) : q.match_ = match_ ∧ q.FlowID = flowID ∧ ∃ p < PROBE_PATH_AMOUNT,
      q.src_port = beToCpu16 (beToCpu16 q.match_.src_port + p.toUInt16) := by
  unfold probes at h
  obtain ⟨p, hp, rfl⟩ := List.mem_map.1 h
  rw [List.mem_range] at hp
  exact ⟨rfl, rfl, p, Nat.lt_of_lt_of_le hp hcount, rfl⟩

/-- What the network is relied on for: a packet to the answers' port is an answer to a probe that has been
sent, and the connections are fewer than their numbers. -/
def Answers (env : ArEnv) (e : FlowQoSEntry) (attr : ArAttr) : Prop :=
  attr.flowID.toNat + 1 < 2 ^ 64 ∧ ∀ poll ∈ env.polls, ∀ m ∈ poll.2, m.isAnswer →
    ∃ q ∈ sentBy env e attr, m.src_port = q.src_port ∧ m.FlowID = q.FlowID

/-- The probes that have been sent have the numbers of connections up to now, each connection its own, and are
sent from four source ports. -/
structure ProbesInv (attr : ArAttr) : Prop where
  le : ∀ q ∈ attr.sent, q.FlowID.toNat ≤ attr.flowID.toNat
  unique : ∀ q ∈ attr.sent, ∀ q' ∈ attr.sent, q.FlowID = q'.FlowID → q.match_ = q'.match_
  ports : ∀ q ∈ attr.sent, ∃ p < PROBE_PATH_AMOUNT,
    q.src_port = beToCpu16 (beToCpu16 q.match_.src_port + p.toUInt16)
  released : attr.released ≤ attr.taken
  taken : attr.taken ≤ attr.released + 3 * attr.flowID.toNat

theorem mem_sentBy {q : Probe} (h : q ∈ sentBy env e attr) : q ∈ attr.sent ∨ q.match_ = e.match_ ∧
    q.FlowID = attr.flowID + 1 ∧ ∃ p < PROBE_PATH_AMOUNT,
      q.src_port = beToCpu16 (beToCpu16 q.match_.src_port + p.toUInt16) := by
  unfold sentBy at h
  rcases List.mem_append.1 h with h | h
  · exact .inl h
  · refine .inr (mem_probes ?_ (List.mem_of_mem_take h))
    split
    · exact Nat.le_refl _
    · exact Nat.zero_le _

/-- **A call of `adaptive_routing`** finds the source port of a probe for its own connection, or none. -/
theorem adaptiveRouting_spec {res : UInt16} (h : ProbesInv attr) (hans : Answers env e attr)
    (hrun : adaptiveRouting env e attr = (res, attr')) : ProbesInv attr' ∧ attr'.sent = sentBy env e attr ∧
      (res ≠ 0 → ∃ q ∈ attr'.sent, q.match_ = e.match_ ∧ q.src_port = res) := by
  obtain ⟨hlt, hans⟩ := hans
  have hnext : (attr.flowID + 1).toNat = attr.flowID.toNat + 1 := by
    rw [UInt64.toNat_add]
    exact Nat.mod_eq_of_lt hlt
  -- the number is a new one
  have hnew : ∀ q ∈ attr.sent, q.FlowID ≠ attr.flowID + 1 := by
    intro q hq heq
    have hle := h.le q hq
    rw [heq, hnext] at hle
    omega
  unfold adaptiveRouting at hrun
  simp only at hrun
  cases hpoll : pollLoop (attr.flowID + 1) env.start (env.tsc_hz / 100) env.polls with
  | mk res' rest =>
    obtain ⟨received, freed⟩ := rest
    rw [hpoll] at hrun
    cases hrun
    obtain ⟨hfound, hle, hge⟩ := pollLoop_answer hpoll
    -- of the buffers for probes none is kept
    have hall : ∀ mbufs : List Probe, (mbufs.take env.nb_tx).length + (mbufs.drop env.nb_tx).length =
        mbufs.length := by
      intro mbufs
      rw [← List.length_append, List.take_append_drop]
    refine ⟨⟨fun q hq => ?_, fun q hq q' hq' heq => ?_, fun q hq => ?_, ?_, ?_⟩, rfl, fun hne => ?_⟩
    · change q.FlowID.toNat ≤ (attr.flowID + 1).toNat
      rcases mem_sentBy hq with hold | ⟨-, hid, -⟩
      · have := h.le q hold
        omega
      · rw [hid]
    · rcases mem_sentBy hq with hold | ⟨hm, hid, -⟩ <;> rcases mem_sentBy hq' with hold' | ⟨hm', hid', -⟩
      · exact h.unique q hold q' hold' heq
      · exact absurd (heq.trans hid') (hnew q hold)
      · exact absurd (heq.symm.trans hid) (hnew q' hold')
      · rw [hm, hm']
    · rcases mem_sentBy hq with hold | ⟨-, -, hport⟩
      · exact h.ports q hold
      · exact hport
    · have := h.released
      show attr.released + _ + _ + freed ≤ attr.taken + _ + received
      rw [Nat.add_assoc attr.released, hall]
      omega
    · have := h.taken
      show attr.taken + _ + received ≤ attr.released + _ + _ + freed + 3 * (attr.flowID + 1).toNat
      rw [Nat.add_assoc attr.released, hall, hnext]
      omega
    · obtain ⟨poll, hp, m, hm, hisans, hid, rfl⟩ := hfound hne
      obtain ⟨q, hq, hport, hflow⟩ := hans poll hp m hm hisans
      refine ⟨q, hq, ?_, hport.symm⟩
      rcases mem_sentBy hq with hold | ⟨hmatch, -⟩
      · exact absurd (hflow.symm.trans hid) (hnew q hold)
      · exact hmatch

/-- The connection has the source port of a probe that was sent for it. -/
def Routed (sent : List Probe) (l : Label) : Prop :=
  l.1.dst_port = beToCpu16 VXLAN_PORT ∧ l.2.src_port ≠ 0 ∧ ∃ q ∈ sent, q.match_ = l.1 ∧ q.src_port = l.2.src_port

theorem Routed.mono {sent sent' : List Probe} {l : Label} (hsub : sent ⊆ sent') (h : Routed sent l) :
    Routed sent' l := by
  obtain ⟨hdst, hne, q, hq, hmatch⟩ := h
  exact ⟨hdst, hne, q, hsub hq, hmatch⟩

theorem newConnHandler_spec (h : ProbesInv attr) (hans : Answers env e attr)
    (hrun : newConnHandler env e attr = .ok (ret, e', attr')) :
    ProbesInv attr' ∧ attr.sent ⊆ attr'.sent ∧ (0 ≤ ret → Routed attr'.sent (label e')) := by
  have hignore : ¬ 0 ≤ ignorePackets := by decide
  unfold newConnHandler at hrun
  split at hrun
  · cases hrun
  · split at hrun
    · next hvxlan =>
      simp only at hrun
      -- the handler sets the expire time before it asks for the path
      cases hpath : adaptiveRouting env { e with expireTime := 60 } attr with
      | mk bestPath attr₁ =>
        rw [hpath] at hrun
        obtain ⟨hinv, hsent, hfound⟩ := adaptiveRouting_spec h hans hpath
        have hsub : attr.sent ⊆ attr₁.sent := by
          rw [hsent]
          exact List.subset_append_left _ _
        simp only at hrun
        split at hrun
        · next hne =>
          cases hrun
          obtain ⟨q, hq, hmatch, hport⟩ := hfound hne
          exact ⟨hinv, hsub, fun _ => ⟨hvxlan.2, hne, q, hq, hmatch, hport⟩⟩
        · cases hrun
          exact ⟨hinv, hsub, fun h0 => absurd h0 hignore⟩
    · cases hrun
      exact ⟨h, List.Subset.refl _, fun h0 => absurd h0 hignore⟩

theorem keepsAll_routing {maxConntrack GAP : ℕ} : KeepsAll (routing maxConntrack GAP) := by
  have hignore : ¬ 0 ≤ ignorePackets := by decide
  intro f x e a ret e' a' hf hr hret
  cases hf
  unfold newConnHandler at hr
  split at hr
  · cases hr
  · split at hr
    · simp only at hr
      split at hr
      · cases hr
        exact ⟨rfl, rfl, rfl, rfl, rfl⟩
      · cases hr
        exact absurd hret hignore
    · cases hr
      exact absurd hret hignore

/-! ### Runs -/

/-- The connections that are held have the source ports of their own probes. -/
structure PathsInv (a : Account ArAttr) : Prop where
  probes : ProbesInv a.app
  held : ∀ l ∈ a.held, Routed a.app.sent l

theorem PathsInv.dealing {maxConntrack GAP : ℕ} {conf : ConnAttr} {a a' : Account ArAttr} (h : PathsInv a)
    (hd : Dealing (routing maxConntrack GAP) Answers conf a a') : PathsInv a' := by
  cases hd with
  | refuse _ _ hf hG hr =>
    cases hf
    obtain ⟨hprobes, hsub, -⟩ := newConnHandler_spec h.probes hG hr
    exact ⟨hprobes, fun l hl => (h.held l hl).mono hsub⟩
  | accept _ _ hf hG hr hret =>
    cases hf
    obtain ⟨hprobes, hsub, hnew⟩ := newConnHandler_spec h.probes hG hr
    refine ⟨hprobes, fun l hl => ?_⟩
    rcases Multiset.mem_cons.1 hl with rfl | hl
    · exact hnew hret
    · exact (h.held l hl).mono hsub
  | finish _ haging =>
    -- no handler is told of the end of a connection
    cases haging
    exact ⟨h.probes, fun l hl => h.held l (Multiset.mem_of_mem_erase hl)⟩

/-- The state of the application in a run. -/
theorem run_pathsInv (a : InitArgs) (GAP : ℕ) {es : List (Event ArAttr ArEnv)} {w : World ArAttr}
    (hr : RunsWhile (routing a.maxConntrack GAP) (Outside Answers) (boot a arPorts {}) es w) :
    ProbesInv w.2.app ∧ ∀ c, Alive (routing a.maxConntrack GAP) w.2 c →
      Routed w.2.app.sent (label (w.2.ctx c).entry) := by
  have hat : Attaches (boot a arPorts ({} : ArAttr)).2.attr := attaches_boot a _ (by decide)
  obtain ⟨lost, hcalls, -⟩ := run_dealings (routing a.maxConntrack GAP) Answers rfl arPorts {}
    (.inl keepsAll_routing) hat hr
  have hinv : PathsInv ⟨w.2.app, labels (routing a.maxConntrack GAP) w.2 + lost⟩ := by
    refine Relation.ReflTransGen.head_induction_on (motive := fun b _ => PathsInv b → PathsInv _) hcalls
      (fun h => h) (fun hd _ ih h => ih (h.dealing hd)) ⟨⟨?_, ?_, ?_, ?_, ?_⟩, fun l hl => ?_⟩
    · exact fun q hq => absurd hq List.not_mem_nil
    · exact fun q hq => absurd hq List.not_mem_nil
    · exact fun q hq => absurd hq List.not_mem_nil
    · exact Nat.le_refl _
    · exact Nat.zero_le _
    · exact absurd hl (Multiset.notMem_zero l)
  refine ⟨hinv.probes, fun c hc => hinv.held _ (Multiset.mem_add.2 (.inl ?_))⟩
  unfold labels
  exact Multiset.mem_map_of_mem _ (mem_inUse.2 hc)

/-- **Every connection takes a path that was probed for it.** In every run, whatever answers come late: a packet
that is forwarded is one to the VXLAN port, it leaves to the network, and from the source port of a probe that
was sent for its own connection, one of the four ports from its own on. Of the buffers, at most three a call are
not given back. -/
theorem run_paths (a : InitArgs) (GAP : ℕ) {es : List (Event ArAttr ArEnv)} {w w' : World ArAttr}
    (hr : RunsWhile (routing a.maxConntrack GAP) (Outside Answers) (boot a arPorts {}) es w) {m : Mbuf}
    {x : PacketEnv ArEnv} {v : Verdict} {c : CtxId} (hout : Outside Answers w (.packet m x))
    (h : Processes (routing a.maxConntrack GAP) w m x v w') (hv : v.ctx = some c) :
    (m.dport = beToCpu16 VXLAN_PORT ∧ v.action = 1 ∧ v.m.sport ≠ 0 ∧
      ∃ q ∈ w'.2.app.sent, SameTuple m q.match_ ∧ v.m.sport = q.src_port ∧
        ∃ p < PROBE_PATH_AMOUNT, v.m.sport = beToCpu16 (beToCpu16 m.sport + p.toUInt16)) ∧
    w'.2.app.released ≤ w'.2.app.taken ∧
      w'.2.app.taken ≤ w'.2.app.released + 3 * w'.2.app.flowID.toNat := by
  have hok : HandlerOk (routing a.maxConntrack GAP) (boot a arPorts ({} : ArAttr)).2.attr := .inl keepsAll_routing
  have hr' := hr.append (.single ⟨hout, h.steps⟩)
  obtain ⟨hprobes, hrouted⟩ := run_pathsInv a GAP hr'
  have hboot : WorldInv (routing a.maxConntrack GAP) (boot a arPorts {}) := worldInv_boot rfl arPorts {} hok
  obtain ⟨hw, -⟩ := Runs.moves hboot (hr.mono fun _ _ _ hs => hs.2)
  obtain ⟨hw', hmoves⟩ := Runs.moves hboot (hr'.mono fun _ _ _ hs => hs.2)
  obtain ⟨k, ⟨hen, e, hparse, rfl⟩, hk, hm, hact⟩ := h.rewrites hw hv
  obtain ⟨hc, hmatch⟩ := hw'.inv.table.table hk
  obtain ⟨hdst, hne, q, hq, hqm, hport⟩ := hrouted c hc
  have htuple : SameTuple m (w'.2.ctx c).entry.match_ := by
    rw [show (w'.2.ctx c).entry.match_ = e.match_ from hmatch]
    exact sameTuple_parsed hparse
  -- the port and the flags are those that the application has set up
  obtain ⟨hport0, hflags⟩ : (w'.2.conns c).port = HOST_PORT ∧
      (w'.2.ctx c).entry.action.flags = SPORT ||| AGING := by
    have hmade := hw'.inv.table.made hc
    have hsame : SameConfig (boot a arPorts ({} : ArAttr)).2.attr w'.2.attr := Moves.sameConfig hmoves
    have hen' : w'.2.attr.PORT_CT_ENABLED (w'.2.conns c).port := hmade.enabled
    rw [hsame.PORT_CT_ENABLED] at hen'
    have hmem := boot_ports a arPorts ({} : ArAttr) hen'
    unfold arPorts at hmem
    rw [List.mem_singleton, Prod.mk.injEq] at hmem
    refine ⟨hmem.1, ?_⟩
    have hfl : (w'.2.ctx c).entry.action.flags = w'.2.attr.ActionFlags (w'.2.conns c).port := hmade.flags
    rw [hfl, hsame.ActionFlags]
    exact hmem.2
  have hsport : v.m.sport = (w'.2.ctx c).entry.action.src_port := by
    have hheader := congrArg Packet.src_port (rewrite_header m (w'.2.ctx c))
    simp only [hflags] at hheader
    rw [hm]
    exact hheader.trans (if_pos (by decide))
  refine ⟨⟨htuple.dst_port.trans hdst, ?_, ?_, q, hq, ?_, ?_, ?_⟩, hprobes.released, hprobes.taken⟩
  · rw [hact, hport0]
    rfl
  · rw [hsport]
    exact hne
  · rw [hqm]
    exact htuple
  · rw [hsport]
    exact hport.symm
  · obtain ⟨p, hp, heq⟩ := hprobes.ports q hq
    refine ⟨p, hp, ?_⟩
    rw [hsport, htuple.src_port]
    rw [hqm] at heq
    exact hport.symm.trans heq

/-- A VXLAN packet of the host. -/
def vxlan (sport : UInt16) : Mbuf where
  port := HOST_PORT
  src_addr := 1
  dst_addr := 2
  next_proto_id := L4_UDP
  sport := sport
  dport := beToCpu16 VXLAN_PORT

/-- The environment of a packet for which the application receives these packets at once. -/
def receives (burst : List Received) : PacketEnv ArEnv where
  app := { alloc := true, nb_tx := 4, start := 0, tsc_hz := 1000, polls := [(1, burst), (20, [])] }
  ctx := some 0
  hash := true
  outcome := { entry := true, processed := 1 }
  start_tsc := 0
  tune_tsc := 1
  offload_tsc := 1
  flush_tsc := 2
  reset_tsc := 2

/-- The answer to a probe of a connection. -/
def answer (sport : UInt16) (flowID : UInt64) : Received where
  dst_port := beToCpu16 ANSWER_PORT
  src_port := beToCpu16 sport
  FlowID := flowID

/-- No probe of the first connection is answered in time; its answer comes before those of the second one. The
buffer of the last answer is forgotten. -/
theorem run_paths_late : ∃ (w' : World ArAttr) (v : Verdict), v.m.sport = beToCpu16 702 ∧
    (∃ q ∈ w'.2.app.sent, SameTuple (vxlan (beToCpu16 700)) q.match_ ∧ v.m.sport = q.src_port) ∧
    w'.2.app.taken = w'.2.app.released + 1 ∧
    w'.2.app.taken ≤ w'.2.app.released + 3 * w'.2.app.flowID.toNat := by
  obtain ⟨w, w', v, hr, hout, h, hv, hsport, htaken⟩ : ∃ w w' v,
      RunsWhile (routing oneEntry.maxConntrack 1000) (Outside Answers) (boot oneEntry arPorts {})
        [.packet (vxlan (beToCpu16 500)) (receives [])] w ∧
      Outside Answers w (.packet (vxlan (beToCpu16 700))
        (receives [answer 501 1, answer 702 2, answer 700 2])) ∧
      Processes (routing oneEntry.maxConntrack 1000) w (vxlan (beToCpu16 700))
        (receives [answer 501 1, answer 702 2, answer 700 2]) v w' ∧
      v.ctx = some 0 ∧ v.m.sport = beToCpu16 702 ∧ w'.2.app.taken = w'.2.app.released + 1 :=
    ⟨_, _, _, .cons ⟨fun e he _ => by cases he; exact ⟨by decide, by decide +kernel⟩, by decide, rfl⟩ (.nil _),
      fun e he _ => by cases he; exact ⟨by decide +kernel, by decide +kernel⟩, ⟨by decide +kernel, rfl⟩, rfl,
      by decide +kernel, by decide +kernel⟩
  obtain ⟨⟨-, -, -, q, hq, htuple, hport, -⟩, -, hle⟩ := run_paths oneEntry 1000 hr hout h hv
  exact ⟨w', v, hsport, ⟨q, hq, htuple, hport⟩, htaken, hle⟩

end FlowQoS.AdaptiveRouting
