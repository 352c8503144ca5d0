import FlowQoS.Conntrack.Step

/-!
# The budget of hardware entries

An entry of the hardware has been paid for: in QoS mode out of `maxEntry`, in direct mode out of
`CT_NUM`. Where no port has action flags that are exactly `AGING` the price is paid back when the entry
has aged and has been removed (`run_budget`); an entry of a port with these flags has no callback, and
its price is gone (`aging_only_not_budget`).
-/

set_option linter.unusedSectionVars false

namespace FlowQoS.Conntrack

open Lib Pipe Timer

variable {σ ε : Type} {P : Params σ ε} {L : Allowed} {w w' : World σ} {A : Set CtxId} {s s' : Core σ}
  {c : CtxId}

/-- The entries that have been installed and have not aged. -/
def installedEntries (s : Core σ) : ℕ := s.hw.entries.countP fun e => !e.reported

/-- The number of entries that are paid for is `n`. -/
structure Paid (s : Core σ) (n : ℕ) : Prop where
  qos : s.attr.ENABLE_FLOWQOS → s.qos.maxEntry + n = s.qos.maxEntryLimit ∧
    (0 ≤ s.qos.maxEntryLimit → 0 ≤ s.qos.maxEntry)
  direct : s.attr.ENABLE_FLOWQOS = false → s.CT_NUM.toNat + n = s.attr.MaxOffloadedEntry.toNat

theorem Paid.congr {n : ℕ} (h : Paid s n) (hattr : SameConfig s.attr s'.attr)
    (hmax : s'.qos.maxEntry = s.qos.maxEntry) (hlim : s'.qos.maxEntryLimit = s.qos.maxEntryLimit)
    (hnum : s'.CT_NUM = s.CT_NUM) : Paid s' n := by
  constructor
  · rw [hattr.ENABLE_FLOWQOS, hmax, hlim]
    exact h.qos
  · rw [hattr.ENABLE_FLOWQOS, hnum, hattr.MaxOffloadedEntry]
    exact h.direct

/-- An entry is removed: one less is left, since the handles are distinct. -/
theorem HwInv.length_rmEntry (h : HwInv P A s) {x : Option Handle} {ok : Bool} {hw : Hardware}
    (hrm : s.hw.rmEntry x ok = some hw) : hw.entries.length + 1 = s.hw.entries.length := by
  obtain ⟨y, -, ⟨e, he, rfl⟩, rfl⟩ := rmEntry_some hrm
  have hone : (s.hw.entries.map HwEntry.handle).count e.handle = 1 :=
    List.count_eq_one_of_mem h.nodup (List.mem_map_of_mem he)
  rw [List.count_eq_countP, List.countP_map] at hone
  have hsplit := List.length_eq_countP_add_countP (fun x : HwEntry => x.handle == e.handle)
    (l := s.hw.entries)
  have hfilter : (s.hw.entries.filter fun x => x.handle != e.handle).length =
      s.hw.entries.countP fun x => ¬ (x.handle == e.handle) = true := by
    rw [← List.countP_eq_length_filter]
    exact List.countP_congr fun x _ => by simp
  have hcount : s.hw.entries.countP ((fun x => x == e.handle) ∘ HwEntry.handle) =
      s.hw.entries.countP fun x => x.handle == e.handle := rfl
  show (s.hw.entries.filter fun x => x.handle != e.handle).length + 1 = _
  omega

/-- Direct mode pays with `CT_NUM`. -/
theorem Paid.install {n : ℕ} (h : Paid s n) (hen : s.attr.ENABLE_FLOWQOS = false) (hnum : s.CT_NUM ≠ 0)
    (hattr : s'.attr = s.attr) (hnum' : s'.CT_NUM = s.CT_NUM - 1) : Paid s' (n + 1) := by
  constructor
  · intro hen'
    rw [hattr, hen] at hen'
    cases hen'
  · intro _
    have hd := h.direct hen
    have hpos : s.CT_NUM.toNat ≠ 0 := fun hz => hnum (UInt64.toNat_inj.1 hz)
    have hle : (1 : UInt64) ≤ s.CT_NUM := by
      rw [UInt64.le_iff_toNat_le]
      exact Nat.one_le_iff_ne_zero.2 hpos
    rw [hattr, hnum', UInt64.toNat_sub_of_le _ _ hle]
    simp only [UInt64.reduceToNat]
    omega

/-- QoS mode pays with `maxEntry`. -/
theorem Paid.schedule {n : ℕ} (h : Paid s n) (hen : s.attr.ENABLE_FLOWQOS) (hmax : 0 < s.qos.maxEntry)
    (hattr : SameConfig s.attr s'.attr) (hmax' : s'.qos.maxEntry = s.qos.maxEntry - 1)
    (hlim : s'.qos.maxEntryLimit = s.qos.maxEntryLimit) : Paid s' (n + 1) := by
  constructor
  · intro _
    obtain ⟨heq, -⟩ := h.qos hen
    rw [hmax', hlim]
    push_cast
    omega
  · intro hen'
    rw [hattr.ENABLE_FLOWQOS, hen] at hen'
    cases hen'

/-- The clamp does not discard the token of an entry that has been paid for. -/
theorem Paid.returnEntryEvent {n : ℕ} (h : Paid s (n + 1)) (hen : s.attr.ENABLE_FLOWQOS) :
    (returnEntryEvent s).qos.maxEntry = s.qos.maxEntry + 1 := by
  obtain ⟨heq, -⟩ := h.qos hen
  unfold Conntrack.returnEntryEvent
  simp only
  rw [if_neg]
  push_cast at heq
  omega

/-- The price of an aged entry is paid back. -/
theorem Paid.expireHw {n : ℕ} (h : Paid s (n + 1)) (hst : (s.ctx c).ct_state = .HW_FWD_STATE)
    (hexp : connExpireHw P c s = .ok s') : Paid s' n := by
  obtain ⟨hrel, -, hqos, hdirect⟩ := connExpireHw_ok hexp
  constructor
  · intro hen
    rw [hrel.attr] at hen
    obtain ⟨heq, hpos⟩ := h.qos hen
    rw [(hqos ⟨hen, hst⟩).1, h.returnEntryEvent hen, hrel.maxEntryLimit]
    push_cast at heq
    refine ⟨by omega, fun hlim => ?_⟩
    have := hpos hlim
    omega
  · intro hen
    rw [hrel.attr] at hen ⊢
    have hnot : ¬ (s.attr.ENABLE_FLOWQOS ∧ (s.ctx c).ct_state = .HW_FWD_STATE) := by
      rw [hen]
      exact fun hc => by cases hc.1
    have hd := h.direct hen
    have hlt := s.attr.MaxOffloadedEntry.toNat_lt
    rw [(hdirect hnot).2, UInt64.toNat_add]
    simp only [UInt64.reduceToNat]
    omega

/-- **Every move keeps the entries paid for.** -/
theorem paid_move {w w' : Set CtxId × Core σ} (hok : HandlerOk P w.2.attr) (hinv : Inv P w)
    (hat : Attaches w.2.attr) (h : Paid w.2 w.2.hw.entries.length) (hm : Move P L w w') :
    Paid w'.2 w'.2.hw.entries.length := by
  cases hm with
  | @still A s s' hs =>
    rw [hs.hw]
    exact h.congr hs.attr hs.maxEntry hs.maxEntryLimit hs.CT_NUM
  | app => exact h.congr (SameConfig.refl _) rfl rfl rfl
  | @report A s hs =>
    have hlen : (s.hw.report hs).entries.length = s.hw.entries.length := List.length_map _
    rw [hlen]
    exact h.congr (SameConfig.refl _) rfl rfl rfl
  | refuse => exact h.congr (SameConfig.refl _) rfl rfl rfl
  | lose => exact h.congr (SameConfig.refl _) rfl rfl rfl
  | opened => exact h.congr (SameConfig.refl _) rfl rfl rfl
  | rearm => exact h
  | enqueue => exact h.congr ⟨rfl, rfl, rfl, rfl, rfl, rfl, rfl, rfl⟩ rfl rfl rfl
  | @install A s k c o s₁ hk hst hen hnum hadd =>
    obtain ⟨pipe, -, rfl⟩ := (hinv.table.made (hinv.table.table hk).1).offloadEntry_one hadd
    show Paid _ (s.hw.entries ++ [nextHw s c pipe]).length
    rw [List.length_append, List.length_singleton]
    exact h.install hen hnum rfl rfl
  | @schedule A s i c o s₁ arg s' hmem hmax hadd harg hdel =>
    obtain ⟨hmade, ha, rfl, -⟩ := hinv.scheduled hmem hadd harg
    obtain ⟨pipe, -, rfl⟩ := hmade.offloadEntry_one hadd
    obtain ⟨qos, attr, rfl, hattr, -, -, hmax', hlim, -⟩ := scheduled_ok hdel
    show Paid _ (s.hw.entries ++ [nextHw s arg pipe]).length
    rw [List.length_append, List.length_singleton]
    exact h.schedule (hinv.queue.queued ha (hinv.queue.mem.1 hmem).2.1).1 hmax hattr hmax' hlim
  | @addFail A s c o s' hin hst hadd =>
    have ha : Alive P s c := hinv.alive_of_waiting hin
    rcases (hinv.table.made ha).offloadEntry_zero hadd with rfl | rfl
    · exact h.congr (SameConfig.refl _) rfl rfl rfl
    · exact h.congr (SameConfig.refl _) rfl rfl rfl
  | expireSw hc hexp =>
    obtain ⟨hrel, hnum, hmax, -⟩ := connExpireSw_ok hexp
    rw [hrel.hw]
    exact h.congr hrel.sameConfig hmax hrel.maxEntryLimit hnum
  | @rmEntry A s c e ok hw hmem hu hrm hcb =>
    obtain ⟨c', hu', ha, -⟩ := hinv.hw.exact hat e (hmem hat)
    rw [hu] at hu'
    cases hu'
    have hflags : (s.ctx c).entry.action.flags ≠ AGING := by
      rw [(hinv.table.made ha).flags]
      exact hat _ (hinv.table.made ha).enabled
    have hsome := (hinv.hw.cb ha hflags).1
    rw [hcb] at hsome
    cases hsome
  | @expireHw A s c arg e ok hw s' hmem hu hrm hcb harg hexp =>
    obtain ⟨ha, hst, -, hargs⟩ := hinv.hw.reported hinv.table hok hmem hu hrm hcb
    rw [hargs] at harg
    cases harg
    have hlen := hinv.hw.length_rmEntry hrm
    rw [(connExpireHw_ok hexp).1.hw]
    refine Paid.expireHw (s := { s with hw := hw }) ?_ hst hexp
    show Paid _ (hw.entries.length + 1)
    rw [hlen]
    exact h.congr (SameConfig.refl _) rfl rfl rfl

/-! ### The entries that have not aged -/

/-- Every entry of a poll that is still there has still to be processed. -/
def Pending (left : List HwEntry) (s : Core σ) : Prop := ∀ e ∈ s.hw.entries, e.reported → e ∈ left

/-- A move other than a poll reports nothing. -/
theorem pending_move {w w' : Set CtxId × Core σ} (hinv : Inv P w) (h : Pending [] w.2)
    (hm : Move P ⟨True, False⟩ w w') : Pending [] w'.2 := by
  intro e he hrep
  cases hm with
  | still hs =>
    rw [hs.hw] at he
    exact h e he hrep
  | app => exact h e he hrep
  | report hs hR => exact hR.elim
  | refuse => exact h e he hrep
  | lose => exact h e he hrep
  | opened => exact h e he hrep
  | rearm => exact h e he hrep
  | enqueue => exact h e he hrep
  | @install A s k c o s₁ hk hst hen hnum hadd =>
    obtain ⟨pipe, -, rfl⟩ := (hinv.table.made (hinv.table.table hk).1).offloadEntry_one hadd
    rcases List.mem_append.1 he with he | he
    · exact h e he hrep
    · rw [List.mem_singleton.1 he] at hrep
      cases hrep
  | @schedule A s i c o s₁ arg s' hmem hmax hadd harg hdel =>
    obtain ⟨hmade, ha, rfl, -⟩ := hinv.scheduled hmem hadd harg
    obtain ⟨pipe, -, rfl⟩ := hmade.offloadEntry_one hadd
    obtain ⟨qos, attr, rfl, -⟩ := scheduled_ok hdel
    rcases List.mem_append.1 he with he | he
    · exact h e he hrep
    · rw [List.mem_singleton.1 he] at hrep
      cases hrep
  | @addFail A s c o s' hin hst hadd =>
    have ha : Alive P s c := hinv.alive_of_waiting hin
    rcases (hinv.table.made ha).offloadEntry_zero hadd with rfl | rfl
    · exact h e he hrep
    · exact h e he hrep
  | expireSw _ hexp =>
    rw [(connExpireSw_ok hexp).1.hw] at he
    exact h e he hrep
  | rmEntry _ _ hrm =>
    obtain ⟨y, -, -, rfl⟩ := rmEntry_some hrm
    exact h e (List.mem_filter.1 he).1 hrep
  | expireHw _ _ hrm _ _ hexp =>
    rw [(connExpireHw_ok hexp).1.hw] at he
    obtain ⟨y, -, -, rfl⟩ := rmEntry_some hrm
    exact h e (List.mem_filter.1 he).1 hrep

/-- An aged entry that the driver removes is gone after its turn. -/
theorem agedStep_pending {aged : HwEntry × Bool} {all left : List HwEntry} (hrm : aged.2 = true)
    (hpoll : PollInv all (aged.1 :: left) s) (h : Pending (aged.1 :: left) s)
    (hrun : agedStep P s aged = .ok s') : Pending left s' := by
  have hkey : ∀ e ∈ s.hw.entries, e.reported → e.handle ≠ aged.1.handle → e ∈ left := by
    intro e he hrep hne
    rcases List.mem_cons.1 (h e he hrep) with rfl | hin
    · exact absurd rfl hne
    · exact hin
  obtain ⟨c, hu, hcase⟩ := agedStep_ok hrun
  have hentry := (hpoll.left _ List.mem_cons_self).2 c hu
  obtain ⟨hnone, rfl⟩ | ⟨hw, hsome, hcase⟩ := hcase
  · intro e he hrep
    refine hkey e he hrep fun heq => ?_
    unfold Hardware.rmEntry at hnone
    simp only [hentry, hrm, true_and] at hnone
    rw [if_pos ⟨e, he, heq⟩] at hnone
    cases hnone
  · obtain ⟨y, hy, -, rfl⟩ := rmEntry_some hsome
    rw [hentry] at hy
    cases hy
    have hrest : ∀ t : Core σ, t.hw.entries = s.hw.entries.filter (fun e => e.handle != aged.1.handle) →
        Pending left t := by
      intro t ht e he hrep
      rw [ht, List.mem_filter, bne_iff_ne] at he
      exact hkey e he.1 hrep he.2
    obtain ⟨-, rfl⟩ | ⟨-, arg, -, hexp⟩ := hcase
    · exact hrest _ rfl
    · exact hrest s' (by rw [(connExpireHw_ok hexp).1.hw])

/-- After a poll of a port whose aged entries the driver removes, no entry is left that has aged. -/
theorem agingHandle_pending (h : Inv P (A, s)) (hat : Attaches s.attr) {reports : List (Handle × Bool)}
    (hrm : ∀ r ∈ reports, r.2 = true) (hpend : Pending [] s) (hrun : agingHandle P reports s = .ok s') :
    Pending [] s' := by
  unfold agingHandle at hrun
  set s₁ : Core σ := { s with hw := s.hw.report (reports.map Prod.fst) } with hs₁
  have h₁ : HwInv P A s₁ := h.hw.congr (SameConfig.refl _) (List.Perm.refl _) (sameHw_report _ _)
    (fun _ => SameAging.refl _) fun _ hA => hA
  refine (foldlM_inv (P := fun left t => Attaches t.attr ∧
    PollInv s₁.hw.entries (left.map Prod.fst) t ∧ (∀ a ∈ left, a.2 = true) ∧
    Pending (left.map Prod.fst) t) ?_ ⟨hat, ⟨h₁.nodup, fun e he => he, fun e he => ?_⟩, fun a ha => ?_,
      fun e he hrep => ?_⟩ hrun).2.2.2
  · rintro a left t t' ⟨hat', hpoll, hall, hp⟩ hstep
    obtain ⟨-, hattr, hpoll'⟩ := agedStep_moves (A := A) (L := ⟨True, True⟩) (fun _ => hpoll) hstep
    have hat'' := (attaches_congr hattr).2 hat'
    exact ⟨hat'', hpoll' hat'', fun b hb => hall b (List.mem_cons_of_mem _ hb),
      agedStep_pending (hall a List.mem_cons_self) hpoll hp hstep⟩
  · obtain ⟨a, ha, rfl⟩ := List.mem_map.1 he
    have hmem := (mem_agedEntries ha).1
    exact ⟨hmem, fun c hu => h₁.handle_eq hat hmem hu⟩
  · exact hrm _ (mem_agedEntries ha).2
  · -- the entry has been reported by this poll
    obtain ⟨e₀, he₀, rfl⟩ := List.mem_map.1 he
    by_cases hin : e₀.handle ∈ reports.map Prod.fst
    · obtain ⟨r, hr, hhandle⟩ := List.mem_map.1 hin
      simp only [if_pos hin] at he ⊢
      refine List.mem_map.2 ⟨({ e₀ with reported := true }, r.2), ?_, rfl⟩
      refine List.mem_filterMap.2 ⟨r, hr, ?_⟩
      have hfind : s₁.hw.entries.find? (fun e => e.handle == r.1) = some { e₀ with reported := true } := by
        cases hf : s₁.hw.entries.find? fun e => e.handle == r.1 with
        | none =>
          have := List.find?_eq_none.1 hf _ he
          simp [hhandle] at this
        | some x =>
          have hx : x.handle = r.1 := by simpa using List.find?_some hf
          rw [h₁.handle_inj (List.mem_of_find?_eq_some hf) he (hx.trans hhandle)]
      rw [hfind]
      rfl
    · simp only [if_neg hin] at hrep
      exact absurd (hpend e₀ he₀ hrep) List.not_mem_nil

theorem connAgingHandle_pending (h : Inv P (A, s)) (hok : HandlerOk P s.attr) (hat : Attaches s.attr)
    {reports : ℕ → List (Handle × Bool)} (hrm : ∀ i, ∀ r ∈ reports i, r.2 = true) (hpend : Pending [] s)
    (hrun : connAgingHandle P reports s = .ok s') : Pending [] s' := by
  unfold connAgingHandle at hrun
  refine (foldlM_inv (P := fun _ t => Moves P ⟨True, True⟩ (A, s) (A, t) ∧ Pending [] t) ?_ ⟨.refl, hpend⟩
    hrun).2
  rintro i _ t t' ⟨hm, hp⟩ hstep
  have hattr := Moves.sameConfig hm
  have hinv := inv_moves hok h hm
  exact ⟨hm.trans (agingHandle_moves trivial hinv (hok.congr hattr) hstep),
    agingHandle_pending hinv ((attaches_congr hattr).2 hat) (hrm i) hp hstep⟩

/-- The driver removes every entry that it reports as aged. -/
def Removes (_ : World σ) : Event σ ε → Prop
  | .aging reports => ∀ i, ∀ r ∈ reports i, r.2 = true
  | _ => True

theorem pending_step (h : WorldInv P w) (hat : Attaches w.2.attr) (hpend : Pending [] w.2)
    {e : Event σ ε} (hrm : Removes w e) (hs : Steps P w e w') : Pending [] w'.2 := by
  by_cases haging : ∃ reports, e = .aging reports
  · obtain ⟨reports, rfl⟩ := haging
    obtain ⟨s', hrun, rfl⟩ := map_eq_ok.1 hs.2
    exact connAgingHandle_pending h.inv h.ok hat hrm hpend hrun
  · exact (hs.inv (L := ⟨True, False⟩) (Q := fun w => Pending [] w.2)
      (fun _ _ _ hinv hq hm => pending_move hinv hq hm) h hpend (fun _ => trivial)
      fun reports he => haging ⟨reports, he⟩).2

theorem Pending.installedEntries (h : Pending [] s) : installedEntries s = s.hw.entries.length := by
  unfold Conntrack.installedEntries
  rw [List.countP_eq_length]
  intro e he
  cases hrep : e.reported with
  | false => rfl
  | true => exact absurd (h e he hrep) List.not_mem_nil

/-! ### Runs -/

/-- The budgets of both modes. -/
structure Budget (s : Core σ) : Prop where
  qos : s.attr.ENABLE_FLOWQOS → s.qos.maxEntry + installedEntries s = s.qos.maxEntryLimit ∧
    s.qos.maxEntry ≤ s.qos.maxEntryLimit ∧ (0 ≤ s.qos.maxEntryLimit → 0 ≤ s.qos.maxEntry)
  /-- The token of an installed entry is not discarded when it comes back. -/
  token : s.attr.ENABLE_FLOWQOS → 0 < installedEntries s →
    (returnEntryEvent s).qos.maxEntry = s.qos.maxEntry + 1
  direct : s.attr.ENABLE_FLOWQOS = false →
    s.CT_NUM.toNat + installedEntries s = s.attr.MaxOffloadedEntry.toNat

theorem Paid.budget (h : Paid s (installedEntries s)) : Budget s := by
  refine ⟨fun hen => ?_, fun hen hpos => ?_, h.direct⟩
  · obtain ⟨heq, hlim⟩ := h.qos hen
    exact ⟨heq, by omega, hlim⟩
  · obtain ⟨n, hn⟩ := Nat.exists_eq_succ_of_ne_zero (Nat.ne_of_gt hpos)
    rw [hn] at h
    exact h.returnEntryEvent hen

theorem paid_boot (a : InitArgs) (ports : List (ℕ × UInt64)) (app : σ) :
    Paid (boot a ports app).2 0 ∧ (boot a ports app).2.hw.entries = [] := by
  have key : ∀ (ports : List (ℕ × UInt64)) (s : Core σ), Paid s 0 →
      Paid (ports.foldl conntrackInitPort s) 0 := by
    intro ports
    induction ports with
    | nil => exact fun s hs => hs
    | cons p ports ih => exact fun s hs => ih _ ⟨hs.qos, hs.direct⟩
  constructor
  · refine key ports _ ⟨fun hen => ?_, fun _ => ?_⟩
    · have hen' : a.offloadSpeed > 0 := by simpa [conntrackInitEnv] using hen
      simp only [conntrackInitEnv, if_pos hen', qosInit]
      exact ⟨by simp, id⟩
    · simp [conntrackInitEnv]
  · simp only [boot]
    rw [initPorts_eq]
    rfl

/-- **The budget of hardware entries is kept** in every run in which no port has action flags that are
exactly `AGING` and the driver removes the entries it reports as aged. -/
theorem run_budget (P : Params σ ε) {a : InitArgs} (ha : a.maxConntrack = P.maxConntrack)
    {ports : List (ℕ × UInt64)} (hports : ∀ p ∈ ports, p.2 ≠ AGING) (hkeep : Keeps P) (app : σ)
    {es : List (Event σ ε)} (hr : RunsWhile P Removes (boot a ports app) es w) : Budget w.2 := by
  have hat : Attaches (boot a ports app).2.attr := fun p hp => hports _ (boot_ports a ports app hp)
  obtain ⟨hpaid, hnil⟩ := paid_boot a ports app
  have hinv : WorldInv P w ∧ Attaches w.2.attr ∧ Paid w.2 w.2.hw.entries.length ∧ Pending [] w.2 := by
    refine Trace.inv (P := fun w => WorldInv P w ∧ Attaches w.2.attr ∧
      Paid w.2 w.2.hw.entries.length ∧ Pending [] w.2) ?_ hr
      ⟨worldInv_boot ha ports app (.inr ⟨hkeep, hat⟩), hat, ?_, ?_⟩
    · rintro w e w' ⟨hw, hat, hp, hpend⟩ ⟨hrm, hs⟩
      obtain ⟨hw', hat', hp'⟩ := hs.inv (L := ⟨True, True⟩)
        (Q := fun w => Attaches w.2.attr ∧ Paid w.2 w.2.hw.entries.length)
        (fun _ _ hok hinv hq hm => ⟨(attaches_congr hm.sameConfig).2 hq.1, paid_move hok hinv hq.1 hq.2 hm⟩)
        hw ⟨hat, hp⟩ (fun _ => trivial) fun _ _ => trivial
      exact ⟨hw', hat', hp', pending_step hw hat hpend hrm hs⟩
    · rw [hnil]
      exact hpaid
    · intro e he
      rw [hnil] at he
      exact absurd he List.not_mem_nil
  obtain ⟨-, -, hp, hpend⟩ := hinv
  rw [← hpend.installedEntries] at hp
  exact hp.budget

theorem run_budget_accepting : ∃ w, RunsWhile (accepting id) Removes (boot oneEntry [(0, AGING ||| SIP)] 0)
    [.packet (packetOf L4_TCP) (offloads 0), .aging fun _ => [(0, true)],
      .packet (packetOf L4_UDP) (offloads 1)] w ∧ w.2.CT_NUM = 0 ∧ Budget w.2 := by
  obtain ⟨w, hnum, hw⟩ : ∃ w, w.2.CT_NUM = 0 ∧ RunsWhile (accepting id) Removes
      (boot oneEntry [(0, AGING ||| SIP)] 0)
      [.packet (packetOf L4_TCP) (offloads 0), .aging fun _ => [(0, true)],
        .packet (packetOf L4_UDP) (offloads 1)] w :=
    ⟨_, rfl, .cons ⟨trivial, by decide, rfl⟩
      (.cons ⟨fun _ => List.forall_mem_singleton.2 rfl, by decide +kernel, rfl⟩
      (.cons ⟨trivial, by decide +kernel, rfl⟩ (.nil _)))⟩
  exact ⟨w, hw, hnum, run_budget (accepting id) rfl (by decide) keepsAll_accepting.keeps 0 hw⟩

/-- On a port whose action flags are exactly `AGING` the price of an aged entry is not paid back: the driver
has removed the entry, and `CT_NUM` stays at 0. An entry that the driver does not remove is not paid back
either. -/
theorem aging_only_not_budget :
    (∃ w, Runs (accepting fun e => { e with expireTime := 10 }) (boot oneEntry [(0, AGING)] 0)
      [.packet (packetOf L4_TCP) (offloads 0), .aging fun _ => [(0, true)]] w ∧
      w.2.hw.entries = [] ∧ w.2.CT_NUM = 0 ∧ w.2.attr.MaxOffloadedEntry = 1 ∧ ¬ Budget w.2) ∧
    ∃ w, Runs (accepting id) (boot oneEntry [(0, AGING ||| SIP)] 0)
      [.packet (packetOf L4_TCP) (offloads 0), .aging fun _ => [(0, false)]] w ∧ ¬ Budget w.2 := by
  refine ⟨⟨_, .cons ⟨by decide, rfl⟩ (.cons ⟨by decide +kernel, rfl⟩ (.nil _)), by decide +kernel, rfl,
    by decide +kernel, fun h => ?_⟩, _, .cons ⟨by decide, rfl⟩ (.cons ⟨by decide +kernel, rfl⟩ (.nil _)),
    fun h => ?_⟩
  · have hdirect := h.direct rfl
    revert hdirect
    decide +kernel
  · have hdirect := h.direct rfl
    revert hdirect
    decide +kernel

end FlowQoS.Conntrack
