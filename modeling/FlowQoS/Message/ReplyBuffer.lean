import FlowQoS.Message.Delivery

/-!
# The reply buffer of `flowQoS_message_multiThread_do`

`flowQoS_message_multiThread_do` receives the replies of the workers into a local `int res`: it gives
`flowQoS_message_multicast_recv` its address and its size. The master copies the message of the `k`-th
worker to `k` times that size behind the address, so that one reply fits and the next lands behind the
variable (`Receiving`). A call writes inside the buffer exactly when the master finds no message in the
ring of a worker other than the first.
-/

namespace FlowQoS.Message.Transport

open Lib

variable {n call res : ℕ} {s s' : State} {core : Core}

/-- `sizeof(int)`. -/
def sizeofInt : ℕ := 4

/-- The addresses that `flowQoS_recv_msg` has copied a message to. -/
def Delivered.Writes (d : Delivered) (a : ℕ) : Prop :=
  d.msg_buf ≤ a ∧ a < d.msg_buf + min d.len messageMaxSize

/-- What the master has written in the call lies in the variable. -/
def InsideReply (s : State) (call res : ℕ) : Prop :=
  ∀ r, ∀ d ∈ s.delivered r, d.core = .master → d.call = call →
    ∀ a, d.Writes a → res ≤ a ∧ a < res + sizeofInt

/-- With the event the master polls, in the call, the ring of the worker and finds a message. -/
def Answered (s : State) (call w : ℕ) : Event → Prop
  | .access .master _ => s.ring ⟨w, false⟩ ≠ [] ∧ ∃ arr len rest count r,
      s.act .master = .recv call arr len (w :: rest) count r .dequeue
  | _ => False

/-! ### One step -/

/-- What a step of a core leaves alone, and the calls and deliveries it can add. -/
structure Framed (s : State) (core : Core) (s' : State) : Prop where
  act : ∀ c ≠ core, s'.act c = s.act c
  calls : s.calls ≤ s'.calls
  call : ∀ k, (s'.act core).call = some k → (s.act core).call = some k ∨ k = s.calls
  kept : ∀ r d, d ∈ s.delivered r → d ∈ s'.delivered r
  added : ∀ r d, d ∈ s'.delivered r → d ∈ s.delivered r ∨ d.core = core ∧ (s.act core).call = some d.call

theorem Framed.of_act {a : Act} (hact : s'.act = Function.update s.act core a) (hcalls : s.calls ≤ s'.calls)
    (hcall : ∀ k, a.call = some k → (s.act core).call = some k ∨ k = s.calls)
    (hdel : s'.delivered = s.delivered) : Framed s core s' := by
  refine ⟨fun c hc => ?_, hcalls, fun k hk => ?_, fun r d hd => ?_, fun r d hd => .inl ?_⟩
  · rw [hact, Function.update_of_ne hc]
  · rw [hact, Function.update_self] at hk
    exact hcall k hk
  · rwa [hdel]
  · rwa [hdel] at hd

theorem mem_noteDelivered {r r' : Ring} {d d' : Delivered} :
    d' ∈ (s.noteDelivered r d).delivered r' ↔ d' ∈ s.delivered r' ∨ r' = r ∧ d' = d := by
  unfold State.noteDelivered
  by_cases hr : r' = r
  · subst hr
    simp
  · simp [hr]

theorem Moved.framed (h : Moved n s core s') : Framed s core s' := by
  cases h with
  | startSend msg hv ha | startRecv msg_arr len hv ha =>
    exact .of_act rfl (Nat.le_succ _) (fun k hk => .inr (Option.some_inj.1 hk).symm) rfl
  | endSend ha | endRecv ha => exact .of_act rfl (Nat.le_refl _) nofun rfl
  | noBuffer ha | getBuffer ha hlen hb | fill ha | enqueue ha | full ha | giveBack ha | nothing ha htodo
  | dequeue ha hq | release ha =>
    exact .of_act rfl (Nat.le_refl _) (fun k hk => .inl (by rw [ha]; exact hk)) rfl
  | @take call arr len w rest count r b ha =>
    refine ⟨fun c hc => Function.update_of_ne hc _ _, Nat.le_refl _, fun k hk => .inl ?_,
      fun r d hd => mem_noteDelivered.2 (.inl hd), fun r d hd => ?_⟩
    · rw [act_setAct, if_pos rfl] at hk
      rw [ha]
      exact hk
    · refine (mem_noteDelivered.1 hd).imp_right ?_
      rintro ⟨-, rfl⟩
      exact ⟨rfl, by rw [ha]; rfl⟩

/-- The master is at the `k`-th worker of the call, and `k` times the size behind the address; the
messages it has copied are of workers in `P`, each at the place of its worker. -/
structure Receiving (n call res : ℕ) (P : ℕ → Prop) (s : State) : Prop where
  calls : call < s.calls
  master : (s.act .master).call = some call → ∃ k m count r pc, k + m = n ∧
    s.act .master = .recv call (res + k * sizeofInt) sizeofInt (List.range' k m) count r pc ∧
    (pc ≠ .dequeue → P k)
  delivered : ∀ r d, d ∈ s.delivered r → d.core = .master → d.call = call →
    P r.w ∧ r.w < n ∧ d.msg_buf = res + r.w * sizeofInt ∧ d.len = sizeofInt

variable {P : ℕ → Prop}

/-- A step in which the master does not go on with the call. -/
theorem Receiving.frame (h : Receiving n call res P s) (hf : Framed s core s')
    (hne : core = .master → (s.act .master).call ≠ some call) : Receiving n call res P s' := by
  refine ⟨Nat.lt_of_lt_of_le h.calls hf.calls, fun hcall => ?_, fun r d hd hcore hk => ?_⟩
  · by_cases hc : core = .master
    · subst hc
      rcases hf.call _ hcall with hold | hnew
      · exact absurd hold (hne rfl)
      · exact absurd h.calls (by omega)
    · rw [hf.act _ (Ne.symm hc)] at hcall ⊢
      exact h.master hcall
  · rcases hf.added r d hd with hold | ⟨hby, hnew⟩
    · exact h.delivered r d hold hcore hk
    · rw [hcore] at hby
      subst hby
      exact absurd (hk ▸ hnew) (hne rfl)

/-- The next access of the master in the call. -/
theorem Receiving.access (h : Receiving n call res P s) {k m count : ℕ} {r : ℤ} {pc : RecvPc}
    (hn : k + m = n) (ha : s.act .master =
      .recv call (res + k * sizeofInt) sizeofInt (List.range' k m) count r pc)
    (hpc : pc ≠ .dequeue → P k)
    (hP : pc = .dequeue → m ≠ 0 → ∀ b q, s.ring ⟨k, false⟩ = b :: q → P k) :
    Receiving n call res P
      (multicastRecv .master call (res + k * sizeofInt) sizeofInt (List.range' k m) count r pc s) := by
  have hset : ∀ {t : State} {a : Act}, t.calls = s.calls → t.delivered = s.delivered →
      (∀ j, a.call = some j → ∃ k m count r pc, k + m = n ∧
        a = .recv call (res + k * sizeofInt) sizeofInt (List.range' k m) count r pc ∧ (pc ≠ .dequeue → P k)) →
      Receiving n call res P (t.setAct .master a) := by
    intro t a hcalls hdel hnext
    refine ⟨hcalls ▸ h.calls, fun hcall => ?_, fun r d hd => h.delivered r d (hdel ▸ hd)⟩
    rw [act_setAct, if_pos rfl] at hcall ⊢
    exact hnext _ hcall
  cases m with
  | zero => exact hset rfl rfl fun j hj => absurd hj (Option.some_ne_none j).symm
  | succ m =>
    have hnext : res + k * sizeofInt + sizeofInt = res + (k + 1) * sizeofInt := by
      rw [Nat.add_mul, Nat.one_mul, Nat.add_assoc]
    simp only [List.range'_succ]
    cases pc with
    | dequeue =>
      -- whether the buffer is missing or the ring is empty, the master polls again or goes on
      have hnothing : Receiving n call res P
          (if count + 1 = maxPolls then s.setAct .master (.recv call (res + k * sizeofInt + sizeofInt)
              sizeofInt (List.range' (k + 1) m) 0 (r - 1 + 1) .dequeue)
            else s.setAct .master (.recv call (res + k * sizeofInt) sizeofInt
              (k :: List.range' (k + 1) m) (count + 1) r .dequeue)) := by
        split
        · refine hset rfl rfl fun j hj => ?_
          obtain rfl : call = j := Option.some_inj.1 hj
          exact ⟨k + 1, m, _, _, _, by omega, by rw [hnext], fun hne => absurd rfl hne⟩
        · refine hset rfl rfl fun j hj => ?_
          obtain rfl : call = j := Option.some_inj.1 hj
          exact ⟨k, m + 1, _, _, _, hn, by rw [List.range'_succ], fun hne => absurd rfl hne⟩
      by_cases hnull : res + k * sizeofInt = 0
      · simpa only [multicastRecv, recvMsg, if_pos hnull, if_pos] using hnothing
      · cases hq : s.ring (recvRing .master k) with
        | nil => simpa only [multicastRecv, recvMsg, if_neg hnull, hq, if_pos] using hnothing
        | cons b q =>
          simp only [multicastRecv, recvMsg, if_neg hnull, hq]
          refine hset rfl rfl fun j hj => ?_
          obtain rfl : call = j := Option.some_inj.1 hj
          exact ⟨k, m + 1, _, _, _, hn, by rw [List.range'_succ], fun _ => hP rfl (Nat.succ_ne_zero m) b q hq⟩
    | copy b =>
      have hk : P k := hpc (by simp)
      refine ⟨h.calls, fun hcall => ?_, fun r d hd hcore hcallk => ?_⟩
      · refine ⟨k, m + 1, count, r, .free b, hn, ?_, fun _ => hk⟩
        simp only [List.range'_succ, multicastRecv, recvMsg, act_setAct, if_pos]
      · rcases mem_noteDelivered.1 hd with hold | ⟨rfl, rfl⟩
        · exact h.delivered r d hold hcore hcallk
        · exact ⟨hk, show k < n by omega, rfl, rfl⟩
    | free b =>
      refine hset rfl rfl fun j hj => ?_
      obtain rfl : call = j := Option.some_inj.1 hj
      exact ⟨k + 1, m, _, _, _, by omega, by rw [hnext], fun hne => absurd rfl hne⟩

theorem step_access {pick : Option ℕ} {arr len count : ℕ} {todo : List ℕ} {r : ℤ} {pc : RecvPc}
    (h : step n s (.access core pick) = some s') (ha : s.act core = .recv call arr len todo count r pc) :
    s' = multicastRecv core call arr len todo count r pc s := by
  simp only [step, ha, Option.some_inj] at h
  exact h.symm

/-- **A step.** The workers whose reply is found are in `P`. -/
theorem Receiving.step {e : Event} (h : Receiving n call res P s) (hs : step n s e = some s')
    (hP : ∀ w, Answered s call w e → P w) : Receiving n call res P s' := by
  have hf := (step_moved hs).framed
  by_cases hgo : e.core = .master ∧ (s.act .master).call = some call
  · obtain ⟨hcore, hcall⟩ := hgo
    obtain ⟨k, m, count, r, pc, hn, ha, hpc⟩ := h.master hcall
    cases e with
    | send core msg | recv core arr len =>
      simp only [Event.core] at hcore
      subst hcore
      simp [Transport.step, ha] at hs
    | access core pick =>
      simp only [Event.core] at hcore
      subst hcore
      rw [step_access hs ha]
      refine h.access hn ha hpc fun hdeq hm b q hq => hP k ⟨hq ▸ List.cons_ne_nil b q, ?_⟩
      obtain ⟨m, rfl⟩ := Nat.exists_eq_succ_of_ne_zero hm
      subst hdeq
      exact ⟨_, _, _, _, _, ha⟩
  · exact h.frame hf fun hcore hcall => hgo ⟨hcore, hcall⟩

/-! ### A message that the master has found -/

/-- In the call the master copies a message of the worker, or has copied one. -/
def Taken (s : State) (call w : ℕ) : Prop :=
  (∃ arr len rest count r b, s.act .master = .recv call arr len (w :: rest) count r (.copy b)) ∨
    ∃ d ∈ s.delivered ⟨w, false⟩, d.core = .master ∧ d.call = call

variable {e : Event} {w : ℕ}

theorem Answered.taken (h : Answered s call w e) (hr : Receiving n call res P s) (hres : res ≠ 0)
    (hs : step n s e = some s') : Taken s' call w := by
  cases e with
  | send core msg | recv core arr len => exact h.elim
  | access core pick =>
    cases core with
    | worker v => exact h.elim
    | master =>
      obtain ⟨hring, arr, len, rest, count, r, ha⟩ := h
      obtain ⟨k, m, count', r', pc, -, ha', -⟩ := hr.master (by rw [ha]; rfl)
      obtain ⟨b, q, hq⟩ := List.exists_cons_of_ne_nil hring
      have harr : arr ≠ 0 := by
        rw [ha] at ha'
        injection ha' with _ harr
        omega
      rw [step_access hs ha]
      refine .inl ⟨arr, len, rest, count, r, b, ?_⟩
      have hq' : s.ring (recvRing .master w) = b :: q := hq
      simp only [multicastRecv, recvMsg, if_neg harr, hq', act_setAct, if_pos]

theorem Taken.step (h : Taken s call w) (hs : step n s e = some s') : Taken s' call w := by
  have hf := (step_moved hs).framed
  rcases h with ⟨arr, len, rest, count, r, b, ha⟩ | ⟨d, hd, hby⟩
  · by_cases hcore : e.core = .master
    · cases e with
      | send core msg | recv core arr len =>
        simp only [Event.core] at hcore
        subst hcore
        simp [Transport.step, ha] at hs
      | access core pick =>
        simp only [Event.core] at hcore
        subst hcore
        rw [step_access hs ha]
        exact .inr ⟨_, mem_noteDelivered.2 (.inr ⟨rfl, rfl⟩), rfl, rfl⟩
    · refine .inl ⟨arr, len, rest, count, r, b, ?_⟩
      rw [hf.act _ (Ne.symm hcore), ha]
  · exact .inr ⟨d, hf.kept _ _ hd, hby⟩

/-! ### Every run -/

/-- A step of the system. -/
abbrev Step (n : ℕ) (s : State) (e : Event) (s' : State) : Prop := step n s e = some s'

theorem Receiving.inside (h : Receiving n call res (· = 0) s) : InsideReply s call res := by
  intro r d hd hcore hcall a ha
  obtain ⟨hw, -, hbuf, hlen⟩ := h.delivered r d hd hcore hcall
  unfold Delivered.Writes at ha
  rw [hbuf, hw, hlen] at ha
  have := Nat.min_le_left sizeofInt messageMaxSize
  omega

/-- The accesses of a core that gets `b` when it asks for a buffer. -/
def accesses (core : Core) (b : ℕ) (k : ℕ) : List Event := List.replicate k (.access core (some b))

end FlowQoS.Message.Transport
