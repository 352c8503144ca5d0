import FlowQoS.Apps.Snat

/-!
# The pool of public ports and the translation table

The calls from the LAN side, with the keys of the connections that are live. `Consistent` says what
the two are for: a pool entry is free, or it is the value of two keys, those of one live connection,
and a live connection finds its way back.

The two keys of a connection lie in one table with those of every other, and an insertion silently
takes over a key that is there. So it matters that the keys of a new connection are in no use
(`SnatCall.KeysFree`), which the handlers do not check.

* `PoolInv`: the invariant behind `Consistent`;
* `run_consistent_iff`: a run stays consistent exactly when all its calls find their keys free.
-/

namespace FlowQoS.Snat

open Pipe Conntrack

/-- A call from the LAN side: of `newConn_handler`, or of `agingConn_handler`. -/
inductive SnatCall where
  | newConn (env : SnatEnv) (newEntry : FlowQoSEntry)
  | aging (newEntry : FlowQoSEntry)

/-- The pool and the table, and the keys of the live connections. -/
abbrev SnatState := SnatAttr × List SnatMatch

/-- A call with its result; an accepted connection lives until `agingConn_handler` is called for it. -/
def SnatCall.run (s : SnatState) : SnatCall → Except Fault (ℤ × SnatState)
  | .newConn env newEntry =>
    (newConnHandler env newEntry s.1).map fun r =>
      (r.1, r.2.2, if r.1 < 0 then s.2 else keyOf newEntry.match_ :: s.2)
  | .aging newEntry =>
    (agingConnHandler newEntry s.1).map fun attr => (0, attr, s.2.erase (keyOf newEntry.match_))

def FromLan (newEntry : FlowQoSEntry) : Prop :=
  ∃ pipe, newEntry.pipe = some pipe ∧ pipe.port_id = LAN_PORT

/-- What the connection tracker keeps to: it asks for a connection that is not live, and reports the
end of one that is. -/
def SnatCall.Allowed (live : List SnatMatch) : SnatCall → Prop
  | .newConn _ newEntry => FromLan newEntry ∧ keyOf newEntry.match_ ∉ live
  | .aging newEntry => FromLan newEntry ∧ keyOf newEntry.match_ ∈ live

/-- The keys that a new connection would be put under are not in use, and are two. -/
def SnatCall.KeysFree (attr : SnatAttr) : SnatCall → Prop
  | .newConn env newEntry =>
    ∀ mac i bucket,
      flowQoSRouterGetArp (env.arp_tables WAN_PORT) (beToCpu32 newEntry.match_.dst_ip) = some mac →
      attr.bucket = i :: bucket →
      attr.snat_table (keyOf newEntry.match_) = none ∧ (env.upstream = true →
        attr.snat_table (reverseKey (keyOf newEntry.match_) (attr.entries i)) = none ∧
          keyOf newEntry.match_ ≠ reverseKey (keyOf newEntry.match_) (attr.entries i))
  | .aging _ => True

/-- What the pool and the table are for. -/
structure Consistent (attr : SnatAttr) (live : List SnatMatch) : Prop where
  /-- An entry is once in the pool, or the value of exactly the two keys of one live connection. -/
  entries : ∀ i < poolSize,
    (attr.bucket.count i = 1 ∧ ∀ k, attr.snat_table k ≠ some i) ∨
      (attr.bucket.count i = 0 ∧ ∃ key ∈ live, key ≠ reverseKey key (attr.entries i) ∧
        ∀ k, attr.snat_table k = some i ↔ k = key ∨ k = reverseKey key (attr.entries i))
  /-- A live connection finds its address and port under its reverse key. -/
  returns : ∀ key ∈ live, ∃ i < poolSize, attr.snat_table key = some i ∧
    attr.snat_table (reverseKey key (attr.entries i)) = some i ∧
    (attr.entries i).dip = key.sip ∧ (attr.entries i).dport = key.sport
  /-- No two live connections have the same public port. -/
  ports : ∀ key ∈ live, ∀ key' ∈ live, ∀ i j, attr.snat_table key = some i →
    attr.snat_table key' = some j → (attr.entries i).sport = (attr.entries j).sport → key = key'

/-- Every state of the run is consistent, and a call that rejects leaves the pool and the table as they
were. -/
def StaysConsistent : List SnatCall → SnatState → Prop
  | [], s => Consistent s.1 s.2
  | c :: calls, s => Consistent s.1 s.2 ∧
    match c.run s with
    | .ok (ret, s') =>
      (ret < 0 → s'.1.bucket = s.1.bucket ∧ s'.1.snat_table = s.1.snat_table) ∧
        StaysConsistent calls s'
    | .error _ => False

/-- Every call is allowed where it is made. -/
def AllAllowed : List SnatCall → SnatState → Prop
  | [], _ => True
  | c :: calls, s => c.Allowed s.2 ∧
    match c.run s with
    | .ok (_, s') => AllAllowed calls s'
    | .error _ => True

/-- Every call finds its keys free. -/
def AllKeysFree : List SnatCall → SnatState → Prop
  | [], _ => True
  | c :: calls, s => c.KeysFree s.1 ∧
    match c.run s with
    | .ok (_, s') => AllKeysFree calls s'
    | .error _ => True

/-! ### The invariant -/

/-- The connection with this key has the pool entry `i`. -/
structure Owns (attr : SnatAttr) (key : SnatMatch) (i : ℕ) : Prop where
  lt : i < poolSize
  taken : i ∉ attr.bucket
  up : attr.snat_table key = some i
  down : attr.snat_table (reverseKey key (attr.entries i)) = some i
  ne : key ≠ reverseKey key (attr.entries i)
  dip : (attr.entries i).dip = key.sip
  dport : (attr.entries i).dport = key.sport

structure PoolInv (sip : UInt32) (attr : SnatAttr) (live : List SnatMatch) : Prop where
  addr : ∀ i < poolSize, (attr.entries i).sip = sip ∧ (attr.entries i).sport = i.toUInt16
  nodup : attr.bucket.Nodup
  range : ∀ i ∈ attr.bucket, i < poolSize
  distinct : live.Nodup
  own : ∀ key ∈ live, ∃ i, Owns attr key i
  keys : ∀ {k i}, attr.snat_table k = some i →
    ∃ key ∈ live, Owns attr key i ∧ (k = key ∨ k = reverseKey key (attr.entries i))
  cover : ∀ i < poolSize, i ∈ attr.bucket ∨ ∃ key ∈ live, Owns attr key i
  uniq : ∀ key ∈ live, ∀ key' ∈ live, ∀ i, attr.snat_table key = some i →
    attr.snat_table key' = some i → key = key'

variable {sip : UInt32} {attr attr' : SnatAttr} {live : List SnatMatch} {key : SnatMatch} {i j : ℕ}
  {s s' : SnatState} {c : SnatCall}

theorem toUInt16_inj (hi : i < poolSize) (hj : j < poolSize) (h : i.toUInt16 = j.toUInt16) : i = j := by
  have h' := congrArg UInt16.toNat h
  simp only [Nat.toUInt16_eq, UInt16.toNat_ofNat'] at h'
  unfold poolSize at hi hj
  omega

theorem PoolInv.consistent (h : PoolInv sip attr live) : Consistent attr live where
  entries i hi := by
    by_cases hfree : i ∈ attr.bucket
    · refine .inl ⟨List.count_eq_one_of_mem h.nodup hfree, fun k hk => ?_⟩
      obtain ⟨key, -, hown, -⟩ := h.keys hk
      exact hown.taken hfree
    · obtain ⟨key, hkey, hown⟩ := (h.cover i hi).resolve_left hfree
      refine .inr ⟨List.count_eq_zero_of_not_mem hfree, key, hkey, hown.ne, fun k => ?_⟩
      constructor
      · intro hk
        obtain ⟨key', hkey', hown', hor⟩ := h.keys hk
        rw [h.uniq key hkey key' hkey' i hown.up hown'.up]
        exact hor
      · rintro (rfl | rfl)
        · exact hown.up
        · exact hown.down
  returns key hkey := by
    obtain ⟨i, hown⟩ := h.own key hkey
    exact ⟨i, hown.lt, hown.up, hown.down, hown.dip, hown.dport⟩
  ports key hkey key' hkey' i j hi hj hport := by
    obtain ⟨k, -, hown, -⟩ := h.keys hi
    obtain ⟨k', -, hown', -⟩ := h.keys hj
    rw [(h.addr i hown.lt).2, (h.addr j hown'.lt).2] at hport
    have hij := toUInt16_inj hown.lt hown'.lt hport
    subst hij
    exact h.uniq key hkey key' hkey' i hi hj

/-- An entry that is in no use and under one key at most. -/
theorem not_consistent_of_single (hi : i < poolSize) (htaken : i ∉ attr.bucket)
    (hone : ∀ k k', attr.snat_table k = some i → attr.snat_table k' = some i → k = k') :
    ¬ Consistent attr live := by
  intro h
  rcases h.entries i hi with ⟨hcount, -⟩ | ⟨-, key, -, hne, hkeys⟩
  · rw [List.count_eq_zero_of_not_mem htaken] at hcount
    omega
  · exact hne (hone _ _ ((hkeys _).2 (.inl rfl)) ((hkeys _).2 (.inr rfl)))

/-! ### The start -/

theorem poolInit_range (sip : UInt32) (attr : SnatAttr) (n : ℕ) :
    ((List.range n).foldl (poolInitStep sip) attr).snat_table = attr.snat_table ∧
      ((List.range n).foldl (poolInitStep sip) attr).bucket = (List.range n).reverse ++ attr.bucket ∧
      ∀ i < n, (((List.range n).foldl (poolInitStep sip) attr).entries i).sip = sip ∧
        (((List.range n).foldl (poolInitStep sip) attr).entries i).sport = i.toUInt16 := by
  induction n with
  | zero => exact ⟨rfl, rfl, fun i hi => absurd hi (Nat.not_lt_zero i)⟩
  | succ n ih =>
    obtain ⟨htable, hbucket, hentries⟩ := ih
    rw [List.range_succ, List.foldl_append, List.foldl_cons, List.foldl_nil]
    refine ⟨htable, ?_, fun i hi => ?_⟩
    · simp only [poolInitStep, flowQoSSnatPoolPut, hbucket, List.reverse_append]
      rfl
    · simp only [poolInitStep, flowQoSSnatPoolPut]
      by_cases hin : i = n
      · subst hin
        rw [Function.update_self]
        exact ⟨rfl, rfl⟩
      · rw [Function.update_of_ne hin]
        exact hentries i (by omega)

theorem poolInit_spec (sip : UInt32) (mem : ℕ → SnatPoolEntry) :
    (∀ k, (flowQoSSnatPoolInit sip mem).snat_table k = none) ∧
      (flowQoSSnatPoolInit sip mem).bucket = (List.range poolSize).reverse ∧
      ∀ i < poolSize, ((flowQoSSnatPoolInit sip mem).entries i).sip = sip ∧
        ((flowQoSSnatPoolInit sip mem).entries i).sport = i.toUInt16 := by
  obtain ⟨htable, hbucket, hentries⟩ := poolInit_range sip
    { snat_table := fun _ => none, entries := mem, bucket := [] } poolSize
  rw [List.append_nil] at hbucket
  rw [← flowQoSSnatPoolInit] at htable hbucket hentries
  exact ⟨fun k => by rw [htable], hbucket, hentries⟩

/-- The pool is full and the table is empty. -/
theorem poolInv_init (sip : UInt32) (mem : ℕ → SnatPoolEntry) :
    PoolInv sip (flowQoSSnatPoolInit sip mem) [] := by
  obtain ⟨htable, hbucket, hentries⟩ := poolInit_spec sip mem
  generalize flowQoSSnatPoolInit sip mem = attr at htable hbucket hentries ⊢
  have hmem : ∀ i, i ∈ attr.bucket ↔ i < poolSize := by
    intro i
    rw [hbucket, List.mem_reverse, List.mem_range]
  refine ⟨hentries, ?_, fun i hi => (hmem i).1 hi, List.nodup_nil, ?_, ?_,
    fun i hi => .inl ((hmem i).2 hi), ?_⟩
  · rw [hbucket, List.nodup_reverse]
    exact List.nodup_range
  · intro key hkey
    cases hkey
  · intro k i hk
    rw [htable] at hk
    cases hk
  · intro key hkey
    cases hkey

/-! ### A new connection -/

theorem newConnLan_none {env : SnatEnv} {newEntry : FlowQoSEntry}
    (h : flowQoSRouterGetArp (env.arp_tables WAN_PORT) (beToCpu32 newEntry.match_.dst_ip) = none ∨
      attr.bucket = []) : newConnLan env newEntry attr = (dropPackets, newEntry, attr) := by
  unfold newConnLan flowQoSSnatPoolGet
  rcases h with h | h
  · rw [h]
  · rw [h]
    split <;> rfl

/-- The first entry of the pool with the address and port in the LAN written to it. -/
def lend (attr : SnatAttr) (i : ℕ) (key : SnatMatch) : ℕ → SnatPoolEntry :=
  Function.update attr.entries i { attr.entries i with dip := key.sip, dport := key.sport }

@[simp] theorem lend_self : lend attr i key i =
    { attr.entries i with dip := key.sip, dport := key.sport } := Function.update_self _ _ _

theorem lend_of_ne (h : j ≠ i) : lend attr i key j = attr.entries j := Function.update_of_ne h _ _

/-- The outcomes for a packet from the LAN once there is an entry for it: the table refuses the first
key, it refuses the second, or the connection is accepted. -/
inductive Lent (env : SnatEnv) (newEntry : FlowQoSEntry) (attr : SnatAttr) (mac : EtherAddr) (i : ℕ)
    (bucket : List ℕ) : ℤ × FlowQoSEntry × SnatAttr → Prop
  | upstream (hup : env.upstream = false) (hnew : attr.snat_table (keyOf newEntry.match_) = none) :
    Lent env newEntry attr mac i bucket (dropPackets, newEntry,
      { snat_table := attr.snat_table, entries := lend attr i (keyOf newEntry.match_),
        bucket := i :: bucket })
  | downstream (hup : env.upstream = true ∨ attr.snat_table (keyOf newEntry.match_) ≠ none)
    (hdown : env.downstream = false)
    (hne : keyOf newEntry.match_ ≠ reverseKey (keyOf newEntry.match_) (attr.entries i))
    (hnew : attr.snat_table (reverseKey (keyOf newEntry.match_) (attr.entries i)) = none) :
    Lent env newEntry attr mac i bucket (dropPackets, newEntry,
      { snat_table := Function.update attr.snat_table (keyOf newEntry.match_) none
        entries := lend attr i (keyOf newEntry.match_), bucket := i :: bucket })
  | accepted (hup : env.upstream = true ∨ attr.snat_table (keyOf newEntry.match_) ≠ none) :
    Lent env newEntry attr mac i bucket (WAN_PORT,
      { newEntry with
        expireTime := CONN_EXPIRE
        action := { newEntry.action with
          src_ip := (attr.entries i).sip, src_port := (attr.entries i).sport, dst_mac := mac } },
      { snat_table := Function.update (Function.update attr.snat_table (keyOf newEntry.match_) (some i))
          (reverseKey (keyOf newEntry.match_) (attr.entries i)) (some i)
        entries := lend attr i (keyOf newEntry.match_), bucket := bucket })

theorem newConnLan_lent {env : SnatEnv} {newEntry : FlowQoSEntry} {mac : EtherAddr} {bucket : List ℕ}
    (harp : flowQoSRouterGetArp (env.arp_tables WAN_PORT) (beToCpu32 newEntry.match_.dst_ip) = some mac)
    (hbucket : attr.bucket = i :: bucket) :
    Lent env newEntry attr mac i bucket (newConnLan env newEntry attr) := by
  have hrev : reverseKey (keyOf newEntry.match_) { attr.entries i with
      dip := newEntry.match_.src_ip, dport := newEntry.match_.src_port } =
      reverseKey (keyOf newEntry.match_) (attr.entries i) := rfl
  simp only [newConnLan, harp, flowQoSSnatPoolGet, hbucket, hrev, hashAddKeyData]
  by_cases hup : env.upstream = true ∨ attr.snat_table (keyOf newEntry.match_) ≠ none
  · have hup' : env.upstream = true ∨ (attr.snat_table (keyOf newEntry.match_)).isSome = true := by
      rwa [Option.isSome_iff_ne_none]
    simp only [if_pos hup']
    split
    · next hdown =>
      -- the second key is refused, so it is not the first one
      split at hdown
      · cases hdown
      · next hnot =>
        rw [not_or] at hnot
        have hnone := Option.not_isSome_iff_eq_none.1 hnot.2
        have hne : keyOf newEntry.match_ ≠ reverseKey (keyOf newEntry.match_) (attr.entries i) := by
          intro heq
          rw [← heq, Function.update_self] at hnone
          cases hnone
        rw [Function.update_of_ne hne.symm] at hnone
        have hdel : Function.update (Function.update attr.snat_table (keyOf newEntry.match_) (some i))
            (keyOf newEntry.match_) none = Function.update attr.snat_table (keyOf newEntry.match_) none :=
          Function.update_idem _ _ _
        simp only [flowQoSSnatPoolPut, hashDelKey, hdel]
        exact .downstream hup (Bool.not_eq_true _ ▸ hnot.1) hne hnone
    · next hdown =>
      split at hdown
      · cases hdown
        exact .accepted hup
      · cases hdown
  · have hup' : ¬ (env.upstream = true ∨ (attr.snat_table (keyOf newEntry.match_)).isSome = true) := by
      rwa [Option.isSome_iff_ne_none]
    simp only [if_neg hup']
    rw [not_or, Bool.not_eq_true, not_not] at hup
    exact .upstream hup.1 hup.2

/-- The table takes both keys. -/
theorem newConnLan_accepts {env : SnatEnv} {newEntry : FlowQoSEntry} {mac : EtherAddr} {bucket : List ℕ}
    (harp : flowQoSRouterGetArp (env.arp_tables WAN_PORT) (beToCpu32 newEntry.match_.dst_ip) = some mac)
    (hbucket : attr.bucket = i :: bucket) (hup : env.upstream = true) (hdown : env.downstream = true) :
    (newConnLan env newEntry attr).1 = WAN_PORT ∧ (newConnLan env newEntry attr).2.2 =
      { snat_table := Function.update (Function.update attr.snat_table (keyOf newEntry.match_) (some i))
          (reverseKey (keyOf newEntry.match_) (attr.entries i)) (some i)
        entries := lend attr i (keyOf newEntry.match_), bucket := bucket } := by
  have hlent := newConnLan_lent harp hbucket
  generalize newConnLan env newEntry attr = r at hlent ⊢
  cases hlent with
  | upstream hfalse _ =>
    rw [hup] at hfalse
    cases hfalse
  | downstream _ hfalse _ _ =>
    rw [hdown] at hfalse
    cases hfalse
  | accepted _ => exact ⟨rfl, rfl⟩

/-! ### Keeping the invariant -/

/-- An owner keeps its entry in a state that leaves the entry and its two keys alone. -/
theorem Owns.transfer (h : Owns attr key j) (hentry : attr'.entries j = attr.entries j)
    (htaken : j ∉ attr'.bucket) (hup : attr'.snat_table key = some j)
    (hdown : attr'.snat_table (reverseKey key (attr.entries j)) = some j) : Owns attr' key j where
  lt := h.lt
  taken := htaken
  up := hup
  down := by rw [hentry]; exact hdown
  ne := by rw [hentry]; exact h.ne
  dip := by rw [hentry]; exact h.dip
  dport := by rw [hentry]; exact h.dport

/-- A key that is free is no live connection's. -/
theorem PoolInv.not_live (h : PoolInv sip attr live) (hkey : attr.snat_table key = none) :
    key ∉ live := by
  intro hlive
  obtain ⟨j, hown⟩ := h.own key hlive
  have hsome := hown.up
  rw [hkey] at hsome
  cases hsome

theorem PoolInv.lend_addr (h : PoolInv sip attr live) (i : ℕ) (key : SnatMatch) :
    ∀ j < poolSize, (lend attr i key j).sip = sip ∧ (lend attr i key j).sport = j.toUInt16 := by
  intro j hj
  by_cases hji : j = i
  · rw [hji, lend_self]
    exact hji ▸ h.addr j hj
  · rw [lend_of_ne hji]
    exact h.addr j hj

/-- A connection that is rejected: what was written to the entry does not matter. -/
theorem PoolInv.reject (h : PoolInv sip attr live) (hi : i ∈ attr.bucket) (key : SnatMatch) :
    PoolInv sip { attr with entries := lend attr i key } live := by
  have hown : ∀ {k j}, Owns attr k j → Owns { attr with entries := lend attr i key } k j := by
    intro k j hown
    have hji : j ≠ i := fun e => hown.taken (e ▸ hi)
    exact hown.transfer (lend_of_ne hji) hown.taken hown.up hown.down
  refine ⟨h.lend_addr i key, h.nodup, h.range, h.distinct, fun k hk => ?_, fun {k j} hk => ?_,
    fun j hj => ?_, h.uniq⟩
  · obtain ⟨j, ho⟩ := h.own k hk
    exact ⟨j, hown ho⟩
  · obtain ⟨k', hk', ho, hor⟩ := h.keys hk
    have hji : j ≠ i := fun e => ho.taken (e ▸ hi)
    rw [← show lend attr i key j = attr.entries j from lend_of_ne hji] at hor
    exact ⟨k', hk', hown ho, hor⟩
  · rcases h.cover j hj with hfree | ⟨k, hk, ho⟩
    · exact .inl hfree
    · exact .inr ⟨k, hk, hown ho⟩

/-- What accepting a connection writes: entry `i` leaves the bucket, and the connection's two keys,
which were free, lead to it. -/
structure Lends (attr attr' : SnatAttr) (key : SnatMatch) (i : ℕ) : Prop where
  bucket : attr.bucket = i :: attr'.bucket
  free : attr.snat_table key = none
  rev_free : attr.snat_table (reverseKey key (attr.entries i)) = none
  ne : key ≠ reverseKey key (attr.entries i)
  table : attr'.snat_table = Function.update (Function.update attr.snat_table key (some i))
    (reverseKey key (attr.entries i)) (some i)
  entries : attr'.entries = lend attr i key

theorem lends {bucket : List ℕ} (hbucket : attr.bucket = i :: bucket)
    (hfree : attr.snat_table key = none)
    (hrev : attr.snat_table (reverseKey key (attr.entries i)) = none)
    (hne : key ≠ reverseKey key (attr.entries i)) :
    Lends attr
      { snat_table := Function.update (Function.update attr.snat_table key (some i))
          (reverseKey key (attr.entries i)) (some i)
        entries := lend attr i key, bucket := bucket } key i :=
  ⟨hbucket, hfree, hrev, hne, rfl, rfl⟩

section Lends

variable (hl : Lends attr attr' key i)

include hl

theorem Lends.mem : i ∈ attr.bucket := by
  rw [hl.bucket]
  exact List.mem_cons_self

theorem Lends.mem_bucket (hj : j ∈ attr'.bucket) : j ∈ attr.bucket := by
  rw [hl.bucket]
  exact List.mem_cons_of_mem _ hj

theorem Lends.lookup (k : SnatMatch) : attr'.snat_table k =
    if k = reverseKey key (attr.entries i) then some i
    else if k = key then some i else attr.snat_table k := by
  rw [hl.table]
  simp only [Function.update_apply]

/-- A key that was in use is neither of the new ones. -/
theorem Lends.old {k : SnatMatch} (hk : attr.snat_table k = some j) : attr'.snat_table k = some j := by
  rw [hl.lookup, if_neg, if_neg, hk]
  · rintro rfl
    rw [hl.free] at hk
    cases hk
  · rintro rfl
    rw [hl.rev_free] at hk
    cases hk

theorem Lends.other {k : SnatMatch} (ho : Owns attr k j) : j ≠ i :=
  fun e => ho.taken (e ▸ hl.mem)

theorem Lends.entry_other {k : SnatMatch} (ho : Owns attr k j) : attr'.entries j = attr.entries j := by
  rw [hl.entries]
  exact lend_of_ne (hl.other ho)

theorem Lends.owns {k : SnatMatch} (ho : Owns attr k j) : Owns attr' k j :=
  ho.transfer (hl.entry_other ho) (fun hj => ho.taken (hl.mem_bucket hj)) (hl.old ho.up)
    (hl.old ho.down)

theorem Lends.reverse : reverseKey key (attr'.entries i) = reverseKey key (attr.entries i) := by
  rw [hl.entries, lend_self]
  rfl

/-- The connection owns the entry it was lent. -/
theorem Lends.owns_self (h : PoolInv sip attr live) : Owns attr' key i := by
  have hnd := h.nodup
  rw [hl.bucket, List.nodup_cons] at hnd
  refine ⟨h.range i hl.mem, hnd.1, ?_, ?_, ?_, ?_, ?_⟩
  · rw [hl.lookup, if_neg hl.ne, if_pos rfl]
  · rw [hl.reverse, hl.lookup, if_pos rfl]
  · rw [hl.reverse]
    exact hl.ne
  · rw [hl.entries, lend_self]
  · rw [hl.entries, lend_self]

/-- The entry of an older connection is another one. -/
theorem Lends.live_other (h : PoolInv sip attr live) {k : SnatMatch} (hk : k ∈ live) :
    attr'.snat_table k ≠ some i := by
  intro hki
  obtain ⟨j, ho⟩ := h.own k hk
  rw [hl.old ho.up, Option.some.injEq] at hki
  exact hl.other ho hki

/-- An older connection's key leads where it led. -/
theorem Lends.live_old (h : PoolInv sip attr live) {k : SnatMatch} (hk : k ∈ live)
    (hj : attr'.snat_table k = some j) : attr.snat_table k = some j := by
  obtain ⟨a, ha⟩ := h.own k hk
  rw [hl.old ha.up, Option.some.injEq] at hj
  rw [ha.up, hj]

/-- Every key of the table belongs to a connection. -/
theorem Lends.keys (h : PoolInv sip attr live) {k : SnatMatch} (hk : attr'.snat_table k = some j) :
    ∃ k' ∈ key :: live, Owns attr' k' j ∧ (k = k' ∨ k = reverseKey k' (attr'.entries j)) := by
  rw [hl.lookup] at hk
  split at hk
  · next hkr =>
    cases hk
    exact ⟨key, List.mem_cons_self, hl.owns_self h, .inr (by rw [hl.reverse]; exact hkr)⟩
  · split at hk
    · next hkk =>
      cases hk
      exact ⟨key, List.mem_cons_self, hl.owns_self h, .inl hkk⟩
    · obtain ⟨k', hk', ho, hor⟩ := h.keys hk
      refine ⟨k', List.mem_cons_of_mem _ hk', hl.owns ho, ?_⟩
      rwa [hl.entry_other ho]

/-- No two connections share an entry. -/
theorem Lends.uniq (h : PoolInv sip attr live) : ∀ k ∈ key :: live, ∀ k' ∈ key :: live, ∀ j,
    attr'.snat_table k = some j → attr'.snat_table k' = some j → k = k' := by
  intro k hk k' hk' j hj hj'
  have hself := (hl.owns_self h).up
  rcases List.mem_cons.1 hk with hkey | hin
  · rcases List.mem_cons.1 hk' with hkey' | hin'
    · rw [hkey, hkey']
    · rw [hkey, hself] at hj
      exact absurd (hj'.trans hj.symm) (hl.live_other h hin')
  · rcases List.mem_cons.1 hk' with hkey' | hin'
    · rw [hkey', hself] at hj'
      exact absurd (hj.trans hj'.symm) (hl.live_other h hin)
    · exact h.uniq k hin k' hin' j (hl.live_old h hin hj) (hl.live_old h hin' hj')

end Lends

/-- A connection that is accepted with keys that are free. -/
theorem PoolInv.accept (h : PoolInv sip attr live) (hl : Lends attr attr' key i)
    (hkey : key ∉ live) : PoolInv sip attr' (key :: live) := by
  refine ⟨?_, ?_, ?_, List.nodup_cons.2 ⟨hkey, h.distinct⟩, ?_, hl.keys h, ?_, hl.uniq h⟩
  · rw [hl.entries]
    exact h.lend_addr i key
  · have hnd := h.nodup
    rw [hl.bucket, List.nodup_cons] at hnd
    exact hnd.2
  · exact fun j hj => h.range j (hl.mem_bucket hj)
  · intro k hk
    rcases List.mem_cons.1 hk with rfl | hk
    · exact ⟨i, hl.owns_self h⟩
    · obtain ⟨j, ho⟩ := h.own k hk
      exact ⟨j, hl.owns ho⟩
  · intro j hj
    rcases h.cover j hj with hfree | ⟨k, hk, ho⟩
    · rw [hl.bucket] at hfree
      rcases List.mem_cons.1 hfree with rfl | hfree
      · exact .inr ⟨key, List.mem_cons_self, hl.owns_self h⟩
      · exact .inl hfree
    · exact .inr ⟨k, List.mem_cons_of_mem _ hk, hl.owns ho⟩

/-- What the end of a connection writes: its entry `i` goes back to the bucket and its two keys are
taken out of the table. -/
structure GivesBack (attr attr' : SnatAttr) (key : SnatMatch) (i : ℕ) : Prop where
  owned : Owns attr key i
  table : attr'.snat_table = Function.update (Function.update attr.snat_table key none)
    (reverseKey key (attr.entries i)) none
  entries : attr'.entries = attr.entries
  bucket : attr'.bucket = i :: attr.bucket

section GivesBack

variable (hg : GivesBack attr attr' key i)

include hg

theorem GivesBack.lookup (k : SnatMatch) : attr'.snat_table k =
    if k = reverseKey key (attr.entries i) then none
    else if k = key then none else attr.snat_table k := by
  rw [hg.table]
  simp only [Function.update_apply]

/-- What is still in the table was there before, under another key. -/
theorem GivesBack.back {k : SnatMatch} (hk : attr'.snat_table k = some j) :
    attr.snat_table k = some j ∧ k ≠ key ∧ k ≠ reverseKey key (attr.entries i) := by
  rw [hg.lookup] at hk
  split at hk
  · cases hk
  · next h1 =>
    split at hk
    · cases hk
    · next h2 => exact ⟨hk, h2, h1⟩

/-- The keys of the other entries are not those of the connection. -/
theorem GivesBack.old {k : SnatMatch} (hk : attr.snat_table k = some j) (hji : j ≠ i) :
    attr'.snat_table k = some j := by
  rw [hg.lookup, if_neg, if_neg, hk]
  · rintro rfl
    rw [hg.owned.up, Option.some.injEq] at hk
    exact hji hk.symm
  · rintro rfl
    rw [hg.owned.down, Option.some.injEq] at hk
    exact hji hk.symm

theorem GivesBack.other (h : PoolInv sip attr live) (hkey : key ∈ live) {k : SnatMatch} (hk : k ∈ live)
    (hne : k ≠ key) (ho : Owns attr k j) : j ≠ i := by
  rintro rfl
  exact hne (h.uniq k hk key hkey _ ho.up hg.owned.up)

/-- The other connections own their entries. -/
theorem GivesBack.owns (h : PoolInv sip attr live) (hkey : key ∈ live) {k : SnatMatch} (hk : k ∈ live)
    (hne : k ≠ key) (ho : Owns attr k j) : Owns attr' k j := by
  have hji := hg.other h hkey hk hne ho
  refine ho.transfer (by rw [hg.entries]) ?_ (hg.old ho.up hji) (hg.old ho.down hji)
  rw [hg.bucket, List.mem_cons]
  rintro (hj | hj)
  · exact hji hj
  · exact ho.taken hj

/-- Every key of the table belongs to a connection that is left. -/
theorem GivesBack.keys (h : PoolInv sip attr live) (hkey : key ∈ live) {k : SnatMatch}
    (hk : attr'.snat_table k = some j) :
    ∃ k' ∈ live.erase key, Owns attr' k' j ∧ (k = k' ∨ k = reverseKey k' (attr'.entries j)) := by
  obtain ⟨hk, hnk, hnr⟩ := hg.back hk
  obtain ⟨k', hk', ho, hor⟩ := h.keys hk
  have hne : k' ≠ key := by
    rintro rfl
    have hij := ho.up
    rw [hg.owned.up, Option.some.injEq] at hij
    subst hij
    rcases hor with hor | hor
    · exact hnk hor
    · exact hnr hor
  exact ⟨k', h.distinct.mem_erase_iff.2 ⟨hne, hk'⟩, hg.owns h hkey hk' hne ho, by rwa [hg.entries]⟩

/-- The entry is free again, and no other. -/
theorem GivesBack.cover (h : PoolInv sip attr live) (hkey : key ∈ live) (hj : j < poolSize) :
    j ∈ attr'.bucket ∨ ∃ k ∈ live.erase key, Owns attr' k j := by
  rw [hg.bucket]
  by_cases hji : j = i
  · rw [hji]
    exact .inl List.mem_cons_self
  · rcases h.cover j hj with hfree | ⟨k, hk, ho⟩
    · exact .inl (List.mem_cons_of_mem _ hfree)
    · have hne : k ≠ key := by
        rintro rfl
        have hij := ho.up
        rw [hg.owned.up, Option.some.injEq] at hij
        exact hji hij.symm
      exact .inr ⟨k, h.distinct.mem_erase_iff.2 ⟨hne, hk⟩, hg.owns h hkey hk hne ho⟩

end GivesBack

/-- A live connection that ends. -/
theorem PoolInv.release (h : PoolInv sip attr live) (hg : GivesBack attr attr' key i)
    (hkey : key ∈ live) : PoolInv sip attr' (live.erase key) := by
  have hmem : ∀ {k}, k ∈ live.erase key ↔ k ≠ key ∧ k ∈ live := h.distinct.mem_erase_iff
  refine ⟨?_, ?_, ?_, h.distinct.erase key, ?_, hg.keys h hkey, fun j => hg.cover h hkey, ?_⟩
  · rw [hg.entries]
    exact h.addr
  · rw [hg.bucket]
    exact List.nodup_cons.2 ⟨hg.owned.taken, h.nodup⟩
  · rw [hg.bucket]
    intro j hj
    rcases List.mem_cons.1 hj with rfl | hj
    · exact hg.owned.lt
    · exact h.range j hj
  · intro k hk
    obtain ⟨hne, hk⟩ := hmem.1 hk
    obtain ⟨j, ho⟩ := h.own k hk
    exact ⟨j, hg.owns h hkey hk hne ho⟩
  · intro k hk k' hk' j hj hj'
    exact h.uniq k (hmem.1 hk).2 k' (hmem.1 hk').2 j (hg.back hj).1 (hg.back hj').1

/-! ### One call -/

theorem newConn_run {env : SnatEnv} {newEntry : FlowQoSEntry} (hlan : FromLan newEntry) :
    (SnatCall.newConn env newEntry).run s = .ok ((newConnLan env newEntry s.1).1,
      (newConnLan env newEntry s.1).2.2,
      if (newConnLan env newEntry s.1).1 < 0 then s.2 else keyOf newEntry.match_ :: s.2) := by
  obtain ⟨pipe, hpipe, hport⟩ := hlan
  simp only [SnatCall.run, newConnHandler, hpipe, if_pos hport]
  rfl

/-- **A packet from the LAN that finds its keys free** is refused, with the pool and the table as they were,
or its connection gets an entry of the pool, beside the connections there are. -/
theorem PoolInv.newConn (h : PoolInv sip attr live) {env : SnatEnv} {newEntry : FlowQoSEntry}
    (hf : (SnatCall.newConn env newEntry).KeysFree attr) {r : ℤ × FlowQoSEntry × SnatAttr}
    (hr : newConnLan env newEntry attr = r) :
    (r.1 < 0 ∧ PoolInv sip r.2.2 live ∧ r.2.2.bucket = attr.bucket ∧
      r.2.2.snat_table = attr.snat_table) ∨
    (r.1 = WAN_PORT ∧ PoolInv sip r.2.2 (keyOf newEntry.match_ :: live) ∧
      (∃ i, r.2.2.snat_table (keyOf newEntry.match_) = some i ∧ r.2.1.action.src_ip = sip ∧
        r.2.1.action.src_port = i.toUInt16) ∧
      ∀ k j, attr.snat_table k = some j → r.2.2.snat_table k = some j) := by
  have hdrop : dropPackets < 0 := by decide
  cases harp : flowQoSRouterGetArp (env.arp_tables WAN_PORT) (beToCpu32 newEntry.match_.dst_ip) with
  | none =>
    rw [newConnLan_none (.inl harp)] at hr
    subst hr
    exact .inl ⟨hdrop, h, rfl, rfl⟩
  | some mac =>
    cases hbucket : attr.bucket with
    | nil =>
      rw [newConnLan_none (.inr hbucket)] at hr
      subst hr
      exact .inl ⟨hdrop, h, hbucket, rfl⟩
    | cons i bucket =>
      obtain ⟨hkey, hrest⟩ := hf mac i bucket harp hbucket
      have hi : i ∈ attr.bucket := by
        rw [hbucket]
        exact List.mem_cons_self
      have hlent := newConnLan_lent harp hbucket
      rw [hr] at hlent
      cases hlent with
      | upstream hup _ =>
        refine .inl ⟨hdrop, ?_, rfl, rfl⟩
        rw [← hbucket]
        exact h.reject hi _
      | downstream hup _ hne hrev =>
        -- the first key is taken out again, and was not there before
        have htable : Function.update attr.snat_table (keyOf newEntry.match_) none =
            attr.snat_table := by
          rw [← hkey]
          exact Function.update_eq_self _ _
        rw [htable]
        refine .inl ⟨hdrop, ?_, rfl, rfl⟩
        rw [← hbucket]
        exact h.reject hi _
      | accepted hup =>
        obtain ⟨hrev, hne⟩ := hrest (hup.resolve_right (not_not.2 hkey))
        have hl := lends hbucket hkey hrev hne
        obtain ⟨hsip, hsport⟩ := h.addr i (h.range i hi)
        refine .inr ⟨rfl, h.accept hl (h.not_live hkey), ⟨i, ?_, hsip, hsport⟩, fun k j hk => hl.old hk⟩
        rw [hl.lookup, if_neg hne, if_pos rfl]

/-- **A call that finds its keys free** keeps the invariant, and leaves the pool and the table alone
when it rejects. -/
theorem PoolInv.step (h : PoolInv sip s.1 s.2) (ha : c.Allowed s.2) (hf : c.KeysFree s.1) :
    ∃ ret s', c.run s = .ok (ret, s') ∧ PoolInv sip s'.1 s'.2 ∧
      (ret < 0 → s'.1.bucket = s.1.bucket ∧ s'.1.snat_table = s.1.snat_table) := by
  obtain ⟨attr, live⟩ := s
  cases c with
  | newConn env newEntry =>
    refine ⟨_, _, newConn_run ha.1, ?_⟩
    rcases h.newConn hf rfl with ⟨hneg, hinv, hbucket, htable⟩ | ⟨hwan, hinv, -, -⟩
    · rw [if_pos hneg]
      exact ⟨hinv, fun _ => ⟨hbucket, htable⟩⟩
    · have hpos : ¬ (newConnLan env newEntry attr).1 < 0 := by
        rw [hwan]
        decide
      rw [if_neg hpos]
      exact ⟨hinv, fun hneg => absurd hneg hpos⟩
  | aging newEntry =>
    obtain ⟨⟨pipe, hpipe, hport⟩, hlive⟩ := ha
    obtain ⟨i, hown⟩ := h.own _ hlive
    have hup : attr.snat_table (keyOf newEntry.match_) = some i := hown.up
    refine ⟨_, (_, _), by simp only [SnatCall.run, agingConnHandler, hpipe, if_pos hport, hup]; rfl, ?_⟩
    exact ⟨h.release ⟨hown, rfl, rfl, rfl⟩ hlive, fun hlt => absurd hlt (by decide)⟩

/-- A key of `j` that is put under another entry, or taken out, leaves `j` with one key. -/
theorem PoolInv.overwritten (h : PoolInv sip attr live) {k₀ : SnatMatch} {live' : List SnatMatch}
    (hk₀ : attr.snat_table k₀ = some j) (htaken : j ∉ attr'.bucket)
    (hkeys : ∀ k, attr'.snat_table k = some j → k ≠ k₀ ∧ attr.snat_table k = some j) :
    ¬ Consistent attr' live' := by
  obtain ⟨key, hkey, hown, hor⟩ := h.keys hk₀
  refine not_consistent_of_single hown.lt htaken ?_
  -- both keys that are left are the other one of the two
  have hother : ∀ k, attr'.snat_table k = some j →
      (k = key ∨ k = reverseKey key (attr.entries j)) ∧ k ≠ k₀ := by
    intro k hk
    obtain ⟨hne, hk⟩ := hkeys k hk
    obtain ⟨key', hkey', hown', hor'⟩ := h.keys hk
    rw [h.uniq key' hkey' key hkey j hown'.up hown.up] at hor'
    exact ⟨hor', hne⟩
  intro k k' hk hk'
  obtain ⟨hk, hne⟩ := hother k hk
  obtain ⟨hk', hne'⟩ := hother k' hk'
  rcases hor with rfl | rfl
  · rw [hk.resolve_left hne, hk'.resolve_left hne']
  · rw [hk.resolve_right hne, hk'.resolve_right hne']

/-- **A call that finds one of its keys in use** leaves an inconsistent state. -/
theorem PoolInv.step_inconsistent (h : PoolInv sip s.1 s.2) (ha : c.Allowed s.2)
    (hf : ¬ c.KeysFree s.1) : ∃ ret s', c.run s = .ok (ret, s') ∧ ¬ Consistent s'.1 s'.2 := by
  obtain ⟨attr, live⟩ := s
  cases c with
  | aging newEntry => exact absurd trivial hf
  | newConn env newEntry =>
    obtain ⟨hlan, hnew⟩ := ha
    refine ⟨_, _, newConn_run hlan, ?_⟩
    simp only [SnatCall.KeysFree, not_forall] at hf
    obtain ⟨mac, i, bucket, harp, hbucket, hf⟩ := hf
    have hi : i ∈ attr.bucket := by
      rw [hbucket]
      exact List.mem_cons_self
    have hnd := h.nodup
    simp only [hbucket, List.nodup_cons] at hnd
    have hsize : i < poolSize := h.range i hi
    -- an entry in the pool is under no key
    have hunused : ∀ k, attr.snat_table k ≠ some i := by
      intro k hk
      obtain ⟨key, -, hown, -⟩ := h.keys hk
      exact hown.taken hi
    have htaken : ∀ {k j}, attr.snat_table k = some j → j ≠ i ∧ j ∉ attr.bucket := by
      intro k j hk
      obtain ⟨key, -, hown, -⟩ := h.keys hk
      exact ⟨fun hji => hown.taken (hji ▸ hi), hown.taken⟩
    have hlent := newConnLan_lent harp hbucket
    generalize newConnLan env newEntry attr = r at hlent ⊢
    cases hkey : attr.snat_table (keyOf newEntry.match_) with
    | some j =>
      obtain ⟨hji, hj⟩ := htaken hkey
      cases hlent with
      | upstream _ hnone =>
        rw [hkey] at hnone
        cases hnone
      | downstream hup _ hne hrev =>
        refine h.overwritten hkey (by rw [← hbucket]; exact hj) fun k hk => ?_
        simp only [Function.update_apply] at hk
        split at hk
        · cases hk
        · next hne => exact ⟨hne, hk⟩
      | accepted hup =>
        refine h.overwritten hkey (fun hm => hj (by rw [hbucket]; exact List.mem_cons_of_mem _ hm))
          fun k hk => ?_
        simp only [Function.update_apply] at hk
        split at hk
        · exact absurd (Option.some.inj hk).symm hji
        · split at hk
          · exact absurd (Option.some.inj hk).symm hji
          · next hne => exact ⟨hne, hk⟩
    | none =>
      simp only [hkey, true_and, not_forall] at hf
      obtain ⟨hup, hf⟩ := hf
      cases hlent with
      | upstream hfalse _ =>
        rw [hup] at hfalse
        cases hfalse
      | downstream _ _ hne hrev => exact absurd ⟨hrev, hne⟩ hf
      | accepted _ =>
        cases hrev : attr.snat_table (reverseKey (keyOf newEntry.match_) (attr.entries i)) with
        | some j =>
          obtain ⟨hji, hj⟩ := htaken hrev
          refine h.overwritten hrev
            (fun hm => hj (by rw [hbucket]; exact List.mem_cons_of_mem _ hm)) fun k hk => ?_
          simp only [Function.update_apply] at hk
          split at hk
          · exact absurd (Option.some.inj hk).symm hji
          · next hne =>
            split at hk
            · exact absurd (Option.some.inj hk).symm hji
            · exact ⟨hne, hk⟩
        | none =>
          have heq : keyOf newEntry.match_ = reverseKey (keyOf newEntry.match_) (attr.entries i) := by
            by_contra hne
            exact hf ⟨hrev, hne⟩
          refine not_consistent_of_single hsize hnd.1 fun k k' hk hk' => ?_
          have hone : ∀ k, Function.update (Function.update attr.snat_table (keyOf newEntry.match_)
              (some i)) (reverseKey (keyOf newEntry.match_) (attr.entries i)) (some i) k = some i →
              k = keyOf newEntry.match_ := by
            intro k hk
            simp only [Function.update_apply] at hk
            split at hk
            · next hrev => exact hrev.trans heq.symm
            · split at hk
              · next hself => exact hself
              · exact absurd hk (hunused k)
          rw [hone k hk, hone k' hk']

/-! ### Runs -/

theorem PoolInv.run_iff : ∀ (calls : List SnatCall) (s : SnatState), PoolInv sip s.1 s.2 →
    AllAllowed calls s → (StaysConsistent calls s ↔ AllKeysFree calls s) := by
  intro calls
  induction calls with
  | nil => exact fun s h _ => ⟨fun _ => trivial, fun _ => h.consistent⟩
  | cons c calls ih =>
    rintro s h ⟨ha, hrest⟩
    by_cases hf : c.KeysFree s.1
    · obtain ⟨ret, s', hrun, h', hsame⟩ := h.step ha hf
      simp only [StaysConsistent, AllKeysFree, hrun] at hrest ⊢
      have hiff := ih s' h' hrest
      exact ⟨fun hs => ⟨hf, hiff.1 hs.2.2⟩, fun hk => ⟨h.consistent, hsame, hiff.2 hk.2⟩⟩
    · obtain ⟨ret, s', hrun, hbad⟩ := h.step_inconsistent ha hf
      simp only [StaysConsistent, AllKeysFree, hrun]
      constructor
      · rintro ⟨-, -, hs⟩
        -- the state after the call is one of the run
        cases calls with
        | nil => exact absurd hs hbad
        | cons c' calls => exact absurd hs.1 hbad
      · rintro ⟨hk, -⟩
        exact absurd hk hf

/-- **The pool and the table stay consistent** in a run exactly when every call finds its keys free. -/
theorem run_consistent_iff (sip : UInt32) (mem : ℕ → SnatPoolEntry) (calls : List SnatCall)
    (hcalls : AllAllowed calls (flowQoSSnatPoolInit sip mem, [])) :
    StaysConsistent calls (flowQoSSnatPoolInit sip mem, []) ↔
      AllKeysFree calls (flowQoSSnatPoolInit sip mem, []) := by
  have h := poolInv_init sip mem
  generalize flowQoSSnatPoolInit sip mem = attr at h hcalls ⊢
  exact PoolInv.run_iff calls (attr, []) h hcalls

/-- Where every address is known and the table takes every key. -/
def openEnv : SnatEnv where
  arp_tables := fun _ => { arps := some fun _ => { ip := 1, mac := [8, 192, 235, 191, 239, 131] } }
  upstream := true
  downstream := true

/-- The entry of a packet from the LAN. -/
def lanEntry (key : SnatMatch) : FlowQoSEntry where
  match_ :=
    { src_ip := key.sip, dst_ip := key.dip, src_port := key.sport, dst_port := key.dport,
      proto := key.proto }
  pipe := some (buildPipe LAN_PORT 0 0)

/-- A host of the LAN asks 8.8.8.8 for a name. -/
def nameQuery : SnatMatch where
  sip := 0x66c8a8c0
  dip := 0x08080808
  sport := 1000
  dport := 53
  proto := 17

/-- The key of the answer, on the first port of the pool of 192.168.201.2. -/
def nameAnswer : SnatMatch where
  sip := 0x08080808
  dip := 0x02c9a8c0
  sport := 53
  dport := 65535
  proto := 17

theorem openEnv_arp (newEntry : FlowQoSEntry) : flowQoSRouterGetArp (openEnv.arp_tables WAN_PORT)
    (beToCpu32 newEntry.match_.dst_ip) = some (etherAddr [8, 192, 235, 191, 239, 131]) := rfl

theorem range_reverse (n : ℕ) :
    (List.range (n + 2)).reverse = (n + 1) :: n :: (List.range n).reverse := by
  simp [List.range_succ]

/-- The first call of a run, and what it leaves. -/
theorem first_call (key : SnatMatch) (sip : UInt32) (mem : ℕ → SnatPoolEntry)
    (hne : key ≠ reverseKey key ⟨sip, 0, 65535, 0⟩) :
    (SnatCall.newConn openEnv (lanEntry key)).KeysFree (flowQoSSnatPoolInit sip mem) ∧
      ∃ attr, (SnatCall.newConn openEnv (lanEntry key)).run (flowQoSSnatPoolInit sip mem, []) =
        .ok (WAN_PORT, attr, [key]) ∧ attr.snat_table (reverseKey key ⟨sip, 0, 65535, 0⟩) = some 65535 ∧
        ∃ bucket, attr.bucket = 65534 :: bucket := by
  obtain ⟨htable, hbucket, hentries⟩ := poolInit_spec sip mem
  generalize flowQoSSnatPoolInit sip mem = attr at htable hbucket hentries ⊢
  have hfirst : attr.bucket = 65535 :: 65534 :: (List.range 65534).reverse := by
    rw [hbucket]
    exact range_reverse 65534
  have hrev : reverseKey key (attr.entries 65535) = reverseKey key ⟨sip, 0, 65535, 0⟩ := by
    obtain ⟨h1, h2⟩ := hentries 65535 (by decide)
    simp only [reverseKey, h1, h2]
    rfl
  constructor
  · intro mac i bucket _ hb
    rw [hfirst, List.cons.injEq] at hb
    obtain ⟨rfl, -⟩ := hb
    refine ⟨htable _, fun _ => ⟨htable _, ?_⟩⟩
    show key ≠ reverseKey key (attr.entries 65535)
    rw [hrev]
    exact hne
  · obtain ⟨hret, hattr⟩ := newConnLan_accepts (openEnv_arp (lanEntry key)) hfirst rfl rfl
    have hlan : FromLan (lanEntry key) := ⟨_, rfl, rfl⟩
    refine ⟨(newConnLan openEnv (lanEntry key) attr).2.2, (newConn_run hlan).trans ?_, ?_,
      (List.range 65534).reverse, ?_⟩
    · rw [hret, if_neg (by decide)]
      rfl
    · simp only [hattr]
      rw [show reverseKey (keyOf (lanEntry key).match_) (attr.entries 65535) =
        reverseKey key ⟨sip, 0, 65535, 0⟩ from hrev, Function.update_self]
    · simp only [hattr]

/-- A connection that begins and ends. -/
theorem run_consistent_iff_query :
    StaysConsistent [.newConn openEnv (lanEntry nameQuery), .aging (lanEntry nameQuery)]
      (flowQoSSnatPoolInit 0x02c9a8c0 fun _ => ⟨0, 0, 0, 0⟩, []) := by
  have hiff := run_consistent_iff 0x02c9a8c0 (fun _ => ⟨0, 0, 0, 0⟩)
    [.newConn openEnv (lanEntry nameQuery), .aging (lanEntry nameQuery)]
  obtain ⟨hfree, attr, hrun, -⟩ := first_call nameQuery 0x02c9a8c0 (fun _ => ⟨0, 0, 0, 0⟩) (by decide)
  have hlan : FromLan (lanEntry nameQuery) := ⟨_, rfl, rfl⟩
  generalize flowQoSSnatPoolInit 0x02c9a8c0 (fun _ => ⟨0, 0, 0, 0⟩) = attr₀ at *
  refine (hiff ?_).2 ?_
  · refine ⟨⟨hlan, List.not_mem_nil⟩, ?_⟩
    rw [hrun]
    refine ⟨⟨hlan, List.mem_singleton.2 rfl⟩, ?_⟩
    split <;> trivial
  · refine ⟨hfree, ?_⟩
    rw [hrun]
    refine ⟨trivial, ?_⟩
    split <;> trivial

/-- A packet from the LAN whose header is that of an answer takes over the reverse key of a live
connection. -/
theorem spoofed_answer_overwrites :
    AllAllowed [.newConn openEnv (lanEntry nameQuery), .newConn openEnv (lanEntry nameAnswer)]
        (flowQoSSnatPoolInit 0x02c9a8c0 fun _ => ⟨0, 0, 0, 0⟩, []) ∧
      ¬ StaysConsistent [.newConn openEnv (lanEntry nameQuery), .newConn openEnv (lanEntry nameAnswer)]
        (flowQoSSnatPoolInit 0x02c9a8c0 fun _ => ⟨0, 0, 0, 0⟩, []) := by
  have h := poolInv_init 0x02c9a8c0 fun _ => ⟨0, 0, 0, 0⟩
  obtain ⟨hfree, attr, hrun, hrev, bucket, hbucket⟩ :=
    first_call nameQuery 0x02c9a8c0 (fun _ => ⟨0, 0, 0, 0⟩) (by decide)
  have hlan : ∀ key, FromLan (lanEntry key) := fun key => ⟨_, rfl, rfl⟩
  have hdistinct : nameAnswer ∉ [nameQuery] := by decide
  generalize flowQoSSnatPoolInit 0x02c9a8c0 (fun _ => ⟨0, 0, 0, 0⟩) = attr₀ at *
  have hallowed : AllAllowed
      [.newConn openEnv (lanEntry nameQuery), .newConn openEnv (lanEntry nameAnswer)] (attr₀, []) := by
    refine ⟨⟨hlan _, List.not_mem_nil⟩, ?_⟩
    rw [hrun]
    refine ⟨⟨hlan _, hdistinct⟩, ?_⟩
    split <;> trivial
  refine ⟨hallowed, fun hs => ?_⟩
  obtain ⟨-, hkeys⟩ := (PoolInv.run_iff _ (attr₀, []) h hallowed).1 hs
  rw [hrun] at hkeys
  obtain ⟨hnone, -⟩ := hkeys.1 _ 65534 bucket (openEnv_arp _) hbucket
  have hsome : attr.snat_table (keyOf (lanEntry nameAnswer).match_) = some 65535 := hrev
  rw [hnone] at hsome
  cases hsome

end FlowQoS.Snat
