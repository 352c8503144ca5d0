import FlowQoS.Lib.CString
import FlowQoS.Pipe.Defs
import Mathlib.Algebra.Group.Nat.Defs
import Mathlib.Data.List.Induction

/-!
# Entries as text (`dumpFlowQoSEntry`, `printFlowQoSEntry`)

`dumpFlowQoSEntry` writes the fields of an entry as texts into an `EntryInfo`, which is three groups of
items of 32 bytes, one item a field. The print functions join the items of a group: the text of each
item, after a comma, is copied to a buffer of 32 bytes and from there to the end of the string that
starts at the first item. So the string grows over items that have been read before.

An address is one in the `EntryInfo`; its 46 items begin at the multiples of 32, five for the match, seven
for the action, and for the control two and the field `fwd`. Beside the result there is a log of what
the joins write.

* `joinLoop_spec`: a join gives the text of its group and writes below the items it has not read,
  if each item but the first leaves room for the comma;
* `formats_iff`: an entry is formatted right exactly when the names of the pipes it goes to are short.
-/

namespace FlowQoS.Pipe

open Lib

def entryInfoItemLength : ℕ := 32

/-- `sizeof(struct EntryInfo)`. -/
def entryInfoSize : ℕ := 46 * 32

/-- `rte_be_to_cpu_16`. -/
def beToCpu16 (x : UInt16) : UInt16 := x <<< 8 ||| x >>> 8

/-- `rte_be_to_cpu_32`. -/
def beToCpu32 (x : UInt32) : UInt32 :=
  x >>> 24 ||| ((x >>> 8) &&& (0xff00 : UInt32)) ||| ((x <<< 8) &&& (0xff0000 : UInt32)) ||| x <<< 24

/-! ### The texts of the fields -/

/-- `%d` and `%lu`. -/
def decimal (n : ℕ) : List Char := Nat.toDigits 10 n

/-- `%02x` of a byte. -/
def hex2 (b : UInt8) : List Char := [Nat.digitChar (b.toNat / 16), Nat.digitChar (b.toNat % 16)]

/-- A name and its value, in quotes. -/
def quoted (name : String) (value : List Char) : List Char :=
  "\"".toList ++ name.toList ++ "\":\"".toList ++ value ++ "\"".toList

/-- The bytes of an address in the order of the network. -/
def dotted (ip : UInt32) : List Char :=
  let sip := beToCpu32 ip
  decimal ((sip &&& 0xff000000) >>> 24).toNat ++ '.' :: decimal ((sip &&& 0x00ff0000) >>> 16).toNat ++
    '.' :: decimal ((sip &&& 0x0000ff00) >>> 8).toNat ++ '.' :: decimal (sip &&& 0x000000ff).toNat

/-- The `i`-th byte of an Ethernet address. -/
def macByte (mac : EtherAddr) (i : ℕ) : UInt8 := UInt8.ofNat (mac.toNat >>> (8 * (5 - i)))

def macText (mac : EtherAddr) : List Char :=
  hex2 (macByte mac 0) ++ ':' :: hex2 (macByte mac 1) ++ ':' :: hex2 (macByte mac 2) ++
    ':' :: hex2 (macByte mac 3) ++ ':' :: hex2 (macByte mac 4) ++ ':' :: hex2 (macByte mac 5)

/-- What `pipeName` can hold: 29 characters and the terminator. -/
structure PipeName where
  chars : List Char
  length_le : chars.length ≤ 29
  clean : nul ∉ chars

/-- The fields `matched_fwd` and `unmatched_fwd` of a pipe. -/
structure PipeFwd where
  matched_fwd : UInt64
  unmatched_fwd : UInt64

/-- Where the pipes forward to, and the name of the pipe at an address. -/
structure PipeEnv where
  fwd : FlowQoSPipe → PipeFwd
  pipeName : UInt64 → PipeName

/-- The value is the address of a pipe. -/
def IsPipe (fwd : UInt64) : Prop := fwd ≠ 0 ∧ fwd ≠ DROP ∧ fwd ≠ PORT ∧ fwd ≠ RSS_TO_QUEUE

def fwdText (env : PipeEnv) (fwd : UInt64) : List Char :=
  if fwd = 0 then "NULL".toList
  else if fwd = DROP then "DROP".toList
  else if fwd = PORT then "PORT".toList
  else if fwd = RSS_TO_QUEUE then "RSS".toList
  else (env.pipeName fwd).chars

/-! ### `dumpFlowQoSEntry` -/

/-- A `sprintf` into an item, if the flag is set. -/
def onFlag (flags flag : UInt64) (item : ℕ) (text : List Char) : List (ℕ × List Char) :=
  if flags &&& flag ≠ 0 then [(item, text)] else []

def matchWrites (x : FlowQoSMatch) : List (ℕ × List Char) :=
  onFlag x.flags SIP 0 (quoted "SIP" (dotted x.src_ip)) ++
  onFlag x.flags DIP 1 (quoted "DIP" (dotted x.dst_ip)) ++
  onFlag x.flags TCP 2 (quoted "proto" "TCP".toList) ++
  onFlag x.flags UDP 2 (quoted "proto" "UDP".toList) ++
  onFlag x.flags ICMP 2 (quoted "proto" "ICMP".toList) ++
  onFlag x.flags SPORT 3 (quoted "SPORT" (decimal (beToCpu16 x.src_port).toNat)) ++
  onFlag x.flags DPORT 4 (quoted "DPORT" (decimal (beToCpu16 x.dst_port).toNat))

def actionWrites (x : FlowQoSAction) : List (ℕ × List Char) :=
  onFlag x.flags SIP 5 (quoted "SIP" (dotted x.src_ip)) ++
  onFlag x.flags DIP 6 (quoted "DIP" (dotted x.dst_ip)) ++
  onFlag x.flags SPORT 7 (quoted "SPORT" (decimal (beToCpu16 x.src_port).toNat)) ++
  onFlag x.flags DPORT 8 (quoted "DPORT" (decimal (beToCpu16 x.dst_port).toNat)) ++
  onFlag x.flags SMAC 9 (quoted "SMAC" (macText x.src_mac)) ++
  onFlag x.flags DMAC 10 (quoted "DMAC" (macText x.dst_mac)) ++
  onFlag x.flags TTL_DECREASE 11 (quoted "TTL" "-1".toList)

def controlWrites (env : PipeEnv) (x : FlowQoSEntry) : List (ℕ × List Char) :=
  onFlag x.action.flags COUNTER 12 (quoted "COUNTER" "1".toList) ++
  onFlag x.action.flags AGING 13 (quoted "AGING" (decimal x.expireTime.toNat)) ++
  match x.pipe with
  | none => []
  | some pipe =>
    [(14, quoted "Match" (fwdText env (env.fwd pipe).matched_fwd)),
      (15, quoted "Miss" (fwdText env (env.fwd pipe).unmatched_fwd))]

/-- The writes of `dumpFlowQoSEntry`, in their order. -/
def entryWrites (env : PipeEnv) (x : FlowQoSEntry) : List (ℕ × List Char) :=
  matchWrites x.match_ ++ actionWrites x.action ++ controlWrites env x

def writeItem (m : Mem) (w : ℕ × List Char) : Mem := sprintf m (entryInfoItemLength * w.1) w.2

/-- `dumpFlowQoSEntry`: the `EntryInfo`, which is cleared first. -/
def dumpFlowQoSEntry (env : PipeEnv) (x : FlowQoSEntry) : Mem :=
  (entryWrites env x).foldl writeItem fun _ => nul

/-! ### `printFlowQoSEntry` -/

/-- A `strcat` of a print function: the first item of the group and the number of its items, the item
that has just been read, and the addresses that are written, the last one excluded. -/
structure Cat where
  group : ℕ
  items : ℕ
  item : ℕ
  lo : ℕ
  hi : ℕ

/-- A turn of the loop over a group; it has no result when the text does not fit into `tmp`. -/
def joinStep (group items : ℕ) (s : Mem × List Cat) (i : ℕ) : Option (Mem × List Cat) :=
  let first := entryInfoItemLength * group
  let item := entryInfoItemLength * (group + i)
  if s.1 item = nul then some s
  else
    let tmp := ',' :: cstr s.1 entryInfoSize item
    if tmp.length < entryInfoItemLength then
      let lo := first + (cstr s.1 entryInfoSize first).length
      some (strcat s.1 entryInfoSize first tmp, s.2 ++ [⟨group, items, i, lo, lo + tmp.length + 1⟩])
    else none

def joinLoop (group items : ℕ) (s : Mem × List Cat) : Option (Mem × List Cat) :=
  (List.range' 1 (items - 1)).foldlM (joinStep group items) s

/-- `*text == ',' ? text + 1 : text`. -/
def skipComma : List Char → List Char
  | [] => []
  | c :: text => if c = ',' then text else c :: text

/-- The three texts, and the log of the joins. -/
structure Printed where
  mat : List Char
  act : List Char
  ctl : List Char
  log : List Cat

/-- The arguments of the output, after the loops. -/
def readGroups (s : Mem × List Cat) : Printed where
  mat := skipComma (cstr s.1 entryInfoSize (entryInfoItemLength * 0))
  act := skipComma (cstr s.1 entryInfoSize (entryInfoItemLength * 5))
  ctl := skipComma (cstr s.1 entryInfoSize (entryInfoItemLength * 12))
  log := s.2

/-- The loops of a print function, and what it puts out. -/
def joinGroups (entryInfo : Mem) : Option Printed := do
  let s ← joinLoop 0 5 (entryInfo, [])
  let s ← joinLoop 5 7 s
  let s ← joinLoop 12 4 s
  pure (readGroups s)

/-- `printFlowQoSEntry`: the text it logs. -/
def printFlowQoSEntry (entryInfo : Mem) : Option (List Char) :=
  (joinGroups entryInfo).map fun p =>
    "\nMAT:[".toList ++ p.mat ++ "]\nACT:[".toList ++ p.act ++ "]\nCTL:[".toList ++ p.ctl ++ "]".toList

/-- `printFlowQoSEntryToCmdline`: the text it writes. -/
def printFlowQoSEntryToCmdline (entryInfo : Mem) : Option (List Char) :=
  (joinGroups entryInfo).map fun p =>
    "MAT:[".toList ++ p.mat ++ "]\nACT:[".toList ++ p.act ++ "]\nCTL:[".toList ++ p.ctl ++ "]\n\n".toList

/-! ### What the text of an entry is to be -/

/-- An item of an entry: its text, or none. -/
def onItem (flags flag : UInt64) (text : List Char) : List Char := if flags &&& flag ≠ 0 then text else []

def matchItems (x : FlowQoSMatch) : List (List Char) :=
  [onItem x.flags SIP (quoted "SIP" (dotted x.src_ip)),
    onItem x.flags DIP (quoted "DIP" (dotted x.dst_ip)),
    if x.flags &&& ICMP ≠ 0 then quoted "proto" "ICMP".toList
    else if x.flags &&& UDP ≠ 0 then quoted "proto" "UDP".toList
    else onItem x.flags TCP (quoted "proto" "TCP".toList),
    onItem x.flags SPORT (quoted "SPORT" (decimal (beToCpu16 x.src_port).toNat)),
    onItem x.flags DPORT (quoted "DPORT" (decimal (beToCpu16 x.dst_port).toNat))]

def actionItems (x : FlowQoSAction) : List (List Char) :=
  [onItem x.flags SIP (quoted "SIP" (dotted x.src_ip)),
    onItem x.flags DIP (quoted "DIP" (dotted x.dst_ip)),
    onItem x.flags SPORT (quoted "SPORT" (decimal (beToCpu16 x.src_port).toNat)),
    onItem x.flags DPORT (quoted "DPORT" (decimal (beToCpu16 x.dst_port).toNat)),
    onItem x.flags SMAC (quoted "SMAC" (macText x.src_mac)),
    onItem x.flags DMAC (quoted "DMAC" (macText x.dst_mac)),
    onItem x.flags TTL_DECREASE (quoted "TTL" "-1".toList)]

def controlItems (env : PipeEnv) (x : FlowQoSEntry) : List (List Char) :=
  [onItem x.action.flags COUNTER (quoted "COUNTER" "1".toList),
    onItem x.action.flags AGING (quoted "AGING" (decimal x.expireTime.toNat)),
    (x.pipe.map fun pipe => quoted "Match" (fwdText env (env.fwd pipe).matched_fwd)).getD [],
    (x.pipe.map fun pipe => quoted "Miss" (fwdText env (env.fwd pipe).unmatched_fwd)).getD []]

/-- The items that are not empty, with commas between them. -/
def commaSeparated (items : List (List Char)) : List Char :=
  List.intercalate [','] (items.filter (· ≠ []))

/-- A join writes from the start of its group on, below the items it has not read, and in its group. -/
structure Cat.Safe (c : Cat) : Prop where
  start : entryInfoItemLength * c.group ≤ c.lo
  unread : c.hi ≤ entryInfoItemLength * (c.group + c.item + 1)
  inside : c.item < c.items

/-- Every item that is written fits with its terminator, the print functions give the items of the three
groups with commas between them, and the joins write where they may. -/
structure Formats (env : PipeEnv) (x : FlowQoSEntry) : Prop where
  fits : ∀ w ∈ entryWrites env x, w.2.length + 1 ≤ entryInfoItemLength
  log : printFlowQoSEntry (dumpFlowQoSEntry env x) = some
    ("\nMAT:[".toList ++ commaSeparated (matchItems x.match_) ++ "]\nACT:[".toList ++
      commaSeparated (actionItems x.action) ++ "]\nCTL:[".toList ++ commaSeparated (controlItems env x) ++
      "]".toList)
  cmdline : printFlowQoSEntryToCmdline (dumpFlowQoSEntry env x) = some
    ("MAT:[".toList ++ commaSeparated (matchItems x.match_) ++ "]\nACT:[".toList ++
      commaSeparated (actionItems x.action) ++ "]\nCTL:[".toList ++ commaSeparated (controlItems env x) ++
      "]\n\n".toList)
  writes : ∀ p, joinGroups (dumpFlowQoSEntry env x) = some p → ∀ c ∈ p.log, c.Safe

/-! ### The loop over a group -/

/-- The text after the join of the items up to the `k`-th. -/
def accText (t : ℕ → List Char) (k : ℕ) : List Char :=
  t 0 ++ (((List.range' 1 k).map t).filter (· ≠ [])).flatMap (',' :: ·)

section Join

variable {m₀ : Mem} {group items k : ℕ} {t : ℕ → List Char} {s : Mem × List Cat} {log₀ : List Cat}

theorem accText_succ (t : ℕ → List Char) (k : ℕ) :
    accText t (k + 1) = if t (k + 1) = [] then accText t k else accText t k ++ ',' :: t (k + 1) := by
  unfold accText
  rw [List.range'_1_concat, List.map_append, List.filter_append, List.flatMap_append, Nat.add_comm 1 k]
  by_cases h : t (k + 1) = []
  · simp [h]
  · simp [h]

/-- The items of a group are in memory, each within its bytes. -/
def HoldsItems (m : Mem) (group items : ℕ) (t : ℕ → List Char) : Prop :=
  ∀ j < items, Holds m (entryInfoItemLength * (group + j)) (t j) ∧ (t j).length < entryInfoItemLength

/-- The items up to the `k`-th have been joined. -/
structure Joined (m₀ : Mem) (log₀ : List Cat) (group k : ℕ) (t : ℕ → List Char) (s : Mem × List Cat) :
    Prop where
  text : Holds s.1 (entryInfoItemLength * group) (accText t k)
  len : (accText t k).length < entryInfoItemLength * (k + 1)
  frame : ∀ b, b < entryInfoItemLength * group ∨ entryInfoItemLength * (group + k + 1) ≤ b → s.1 b = m₀ b
  log : ∀ c ∈ s.2, c ∈ log₀ ∨ c.Safe

theorem joined_zero (h : HoldsItems m₀ group items t) (hpos : 0 < items) :
    Joined m₀ log₀ group 0 t (m₀, log₀) := by
  obtain ⟨hfirst, hlen⟩ := h 0 hpos
  have hacc : accText t 0 = t 0 := by simp [accText]
  refine ⟨?_, ?_, fun _ _ => rfl, fun c hc => .inl hc⟩
  · rw [hacc]
    exact hfirst
  · rw [hacc, Nat.zero_add, Nat.mul_one]
    exact hlen

/-- An empty item is passed over. -/
theorem Joined.skip (hj : Joined m₀ log₀ group k t s) (hempty : t (k + 1) = []) :
    Joined m₀ log₀ group (k + 1) t s := by
  have hacc : accText t (k + 1) = accText t k := by rw [accText_succ, if_pos hempty]
  refine ⟨?_, ?_, fun b hb => hj.frame b ?_, hj.log⟩
  · rw [hacc]
    exact hj.text
  · rw [hacc]
    exact Nat.lt_of_lt_of_le hj.len (Nat.mul_le_mul_left _ (Nat.le_succ _))
  · unfold entryInfoItemLength at hb ⊢
    omega

/-- An item that fits the buffer with its comma goes behind the text. -/
theorem Joined.append (hj : Joined m₀ log₀ group k t s) (hsize : group + items ≤ 46) (hk : k + 1 < items)
    (hne : t (k + 1) ≠ []) (hclean : nul ∉ t (k + 1))
    (hfit : (t (k + 1)).length + 2 ≤ entryInfoItemLength) :
    Joined m₀ log₀ group (k + 1) t
      (strcat s.1 entryInfoSize (entryInfoItemLength * group) (',' :: t (k + 1)),
        s.2 ++ [⟨group, items, k + 1, entryInfoItemLength * group + (accText t k).length,
          entryInfoItemLength * group + (accText t k).length + (',' :: t (k + 1)).length + 1⟩]) := by
  have hacc : accText t (k + 1) = accText t k ++ ',' :: t (k + 1) := by rw [accText_succ, if_neg hne]
  have hlen := hj.len
  have hroom : (accText t k).length < entryInfoSize := by
    unfold entryInfoItemLength at hlen
    unfold entryInfoSize
    omega
  have hcomma : nul ∉ ',' :: t (k + 1) := by
    rw [List.mem_cons, not_or]
    exact ⟨by decide, hclean⟩
  unfold entryInfoItemLength at hfit hlen
  refine ⟨?_, ?_, fun b hb => ?_, fun c hc => ?_⟩
  · rw [hacc]
    exact hj.text.strcat hcomma hroom
  · rw [hacc, List.length_append, List.length_cons]
    unfold entryInfoItemLength
    omega
  · unfold entryInfoItemLength at hb
    rw [hj.text.strcat_eq hroom]
    show sprintf s.1 _ _ b = m₀ b
    rw [sprintf_frame ?_]
    · refine hj.frame b ?_
      unfold entryInfoItemLength
      omega
    · unfold entryInfoItemLength
      rw [List.length_cons]
      omega
  · rcases List.mem_append.1 hc with hc | hc
    · exact hj.log c hc
    · obtain rfl := List.mem_singleton.1 hc
      refine .inr ⟨Nat.le_add_right _ _, ?_, hk⟩
      show 32 * group + (accText t k).length + ((t (k + 1)).length + 1) + 1 ≤ 32 * (group + (k + 1) + 1)
      omega

/-- **A turn of the loop.** For an item that is too long for the buffer there is no result. -/
theorem joinStep_spec (h : HoldsItems m₀ group items t) (hsize : group + items ≤ 46)
    (hj : Joined m₀ log₀ group k t s) (hk : k + 1 < items) :
    ((t (k + 1)).length + 2 ≤ entryInfoItemLength →
      ∃ s', joinStep group items s (k + 1) = some s' ∧ Joined m₀ log₀ group (k + 1) t s') ∧
    (entryInfoItemLength < (t (k + 1)).length + 2 → joinStep group items s (k + 1) = none) := by
  obtain ⟨hitem, hlen⟩ := h (k + 1) hk
  have hread : Holds s.1 (entryInfoItemLength * (group + (k + 1))) (t (k + 1)) :=
    hitem.congr fun b hb _ => hj.frame b (.inr hb)
  have hfirst := hj.len
  unfold entryInfoItemLength at hlen hfirst
  have hcstr := hread.cstr (n := entryInfoSize) (by unfold entryInfoSize; omega)
  have hacc := hj.text.cstr (n := entryInfoSize) (by unfold entryInfoSize; omega)
  unfold joinStep
  simp only [hread.eq_nul_iff, hcstr, hacc, List.length_cons]
  constructor
  · intro hfit
    by_cases hempty : t (k + 1) = []
    · rw [if_pos hempty]
      exact ⟨s, rfl, hj.skip hempty⟩
    · rw [if_neg hempty, if_pos (by omega)]
      exact ⟨_, rfl, hj.append hsize hk hempty hread.clean hfit⟩
  · intro hlong
    have hne : t (k + 1) ≠ [] := by
      intro hnil
      rw [hnil] at hlong
      exact absurd hlong (by decide)
    rw [if_neg hne, if_neg (by omega)]

/-- The loop up to an item. -/
theorem joinSteps_spec (log₀ : List Cat) (h : HoldsItems m₀ group items t) (hsize : group + items ≤ 46)
    (hpos : 0 < items) :
    ∀ k < items,
      ((∀ j, 1 ≤ j → j ≤ k → (t j).length + 2 ≤ entryInfoItemLength) →
        ∃ s, (List.range' 1 k).foldlM (joinStep group items) (m₀, log₀) = some s ∧ Joined m₀ log₀ group k t s) ∧
      ((∃ j, 1 ≤ j ∧ j ≤ k ∧ entryInfoItemLength < (t j).length + 2) →
        (List.range' 1 k).foldlM (joinStep group items) (m₀, log₀) = none) := by
  intro k
  induction k with
  | zero =>
    intro _
    refine ⟨fun _ => ⟨_, rfl, joined_zero h hpos⟩, ?_⟩
    rintro ⟨j, h1, h0, -⟩
    omega
  | succ k ih =>
    intro hk
    obtain ⟨hfit, hlong⟩ := ih (by omega)
    rw [List.range'_1_concat, List.foldlM_append]
    constructor
    · intro hall
      obtain ⟨s, hs, hj⟩ := hfit fun j h1 hjk => hall j h1 (by omega)
      obtain ⟨s', hs', hj'⟩ := (joinStep_spec h hsize hj hk).1 (hall (k + 1) (by omega) (by omega))
      refine ⟨s', ?_, hj'⟩
      rw [hs, Nat.add_comm 1 k]
      simpa using hs'
    · rintro ⟨j, h1, hjk, hj⟩
      by_cases hearly : ∃ j, 1 ≤ j ∧ j ≤ k ∧ entryInfoItemLength < (t j).length + 2
      · rw [hlong hearly]
        rfl
      · obtain ⟨s, hs, hjoin⟩ := hfit fun i h1 hik => by
          by_contra hlt
          exact hearly ⟨i, h1, hik, by omega⟩
        obtain rfl : j = k + 1 := by
          by_contra hne
          exact hearly ⟨j, h1, by omega, hj⟩
        rw [hs, Nat.add_comm 1 k]
        simpa using (joinStep_spec h hsize hjoin hk).2 hj

/-- **A join.** -/
theorem joinLoop_spec (log₀ : List Cat) (h : HoldsItems m₀ group items t) (hsize : group + items ≤ 46)
    (hpos : 0 < items) :
    ((∀ j, 1 ≤ j → j < items → (t j).length + 2 ≤ entryInfoItemLength) →
      ∃ s, joinLoop group items (m₀, log₀) = some s ∧ Joined m₀ log₀ group (items - 1) t s) ∧
    ((∃ j, 1 ≤ j ∧ j < items ∧ entryInfoItemLength < (t j).length + 2) →
      joinLoop group items (m₀, log₀) = none) := by
  obtain ⟨hfit, hlong⟩ := joinSteps_spec log₀ h hsize hpos (items - 1) (by omega)
  refine ⟨fun hall => hfit fun j h1 hj => hall j h1 (by omega), ?_⟩
  rintro ⟨j, h1, hj, hlt⟩
  exact hlong ⟨j, h1, by omega, hlt⟩

theorem joinLoop_cases (log₀ : List Cat) (h : HoldsItems m₀ group items t) (hsize : group + items ≤ 46)
    (hpos : 0 < items) : joinLoop group items (m₀, log₀) = none ∨
      ∃ s, joinLoop group items (m₀, log₀) = some s ∧ Joined m₀ log₀ group (items - 1) t s := by
  obtain ⟨hfit, hlong⟩ := joinLoop_spec log₀ h hsize hpos
  by_cases hall : ∀ j, 1 ≤ j → j < items → (t j).length + 2 ≤ entryInfoItemLength
  · exact .inr (hfit hall)
  · push Not at hall
    obtain ⟨j, h1, hj, hlt⟩ := hall
    exact .inl (hlong ⟨j, h1, hj, by omega⟩)

/-- A join of an earlier group leaves the items of a later one. -/
theorem Joined.later {group' items' : ℕ} {t' : ℕ → List Char} (hj : Joined m₀ log₀ group k t s)
    (h : HoldsItems m₀ group' items' t') (hle : group + k + 1 ≤ group') : HoldsItems s.1 group' items' t' := by
  intro j hj'
  obtain ⟨hitem, hlen⟩ := h j hj'
  refine ⟨hitem.congr fun b hb _ => hj.frame b (.inr ?_), hlen⟩
  unfold entryInfoItemLength at *
  omega

/-- A join of a later group leaves the text of an earlier one. -/
theorem Joined.earlier {s' : Mem × List Cat} {group' k' : ℕ} {t' : ℕ → List Char}
    (hj : Joined s'.1 log₀ group k t s) (h : Holds s'.1 (entryInfoItemLength * group') (accText t' k'))
    (hlen : (accText t' k').length < entryInfoItemLength * (k' + 1)) (hle : group' + k' + 1 ≤ group) :
    Holds s.1 (entryInfoItemLength * group') (accText t' k') := by
  refine h.congr fun b _ hb => hj.frame b (.inl ?_)
  unfold entryInfoItemLength at *
  omega

end Join

/-! ### The text of a group -/

theorem skipComma_cons {c : Char} {text : List Char} (h : c ≠ ',') : skipComma (c :: text) = c :: text :=
  if_neg h

/-- Without a leading comma, the text of a join is that of the items which are not empty. -/
theorem skipComma_accText {t : ℕ → List Char} (hcomma : ∀ j, (t j).head? ≠ some ',') (k : ℕ) :
    skipComma (accText t k) = commaSeparated ((List.range (k + 1)).map t) := by
  have hflat : ∀ xs : List (List Char), List.intercalate [','] xs =
      match xs with
      | [] => []
      | x :: xs => x ++ xs.flatMap (',' :: ·) := by
    intro xs
    induction xs with
    | nil => rfl
    | cons x xs ih =>
      cases xs with
      | nil => simp
      | cons y ys => rw [List.intercalate_cons_cons, ih]; simp
  unfold commaSeparated accText
  rw [List.range_eq_range', List.range'_succ, List.map_cons, List.filter_cons]
  cases h0 : t 0 with
  | nil =>
    rw [if_neg (by simp), hflat]
    cases ((List.range' 1 k).map t).filter (· ≠ []) with
    | nil => rfl
    | cons x xs => rfl
  | cons c text =>
    have hc : c ≠ ',' := by
      intro hc
      have := hcomma 0
      rw [h0, hc] at this
      exact this rfl
    rw [if_pos (by simp), hflat]
    exact skipComma_cons hc

/-! ### The items in memory -/

/-- The text that a sequence of writes leaves in an item. -/
def itemText (ws : List (ℕ × List Char)) (j : ℕ) : List Char :=
  ws.foldl (fun text w => if w.1 = j then w.2 else text) []

theorem itemText_onFlag (ws : List (ℕ × List Char)) (flags flag : UInt64) (i j : ℕ) (text : List Char) :
    itemText (ws ++ onFlag flags flag i text) j =
      if flags &&& flag ≠ 0 ∧ i = j then text else itemText ws j := by
  unfold itemText onFlag
  rw [List.foldl_append]
  by_cases hflag : flags &&& flag ≠ 0
  · simp [hflag]
  · simp [hflag]

theorem writeItem_holds {m : Mem} {t : ℕ → List Char} {w : ℕ × List Char}
    (h : ∀ j, Holds m (entryInfoItemLength * j) (t j) ∧ (t j).length < entryInfoItemLength)
    (hclean : nul ∉ w.2) (hfit : w.2.length < entryInfoItemLength) (j : ℕ) :
    Holds (writeItem m w) (entryInfoItemLength * j) (if w.1 = j then w.2 else t j) ∧
      (if w.1 = j then w.2 else t j).length < entryInfoItemLength := by
  unfold writeItem
  by_cases hj : w.1 = j
  · subst hj
    rw [if_pos rfl]
    exact ⟨sprintf_holds hclean, hfit⟩
  · rw [if_neg hj]
    obtain ⟨hold, hlen⟩ := h j
    refine ⟨hold.congr fun b hb hb' => sprintf_frame ?_, hlen⟩
    unfold entryInfoItemLength at *
    omega

/-- Writes that fit leave in each item the last text written to it. -/
theorem writes_hold {ws : List (ℕ × List Char)} {m : Mem} {t : ℕ → List Char}
    (h : ∀ j, Holds m (entryInfoItemLength * j) (t j) ∧ (t j).length < entryInfoItemLength)
    (hws : ∀ w ∈ ws, nul ∉ w.2 ∧ w.2.length < entryInfoItemLength) (j : ℕ) :
    Holds (ws.foldl writeItem m) (entryInfoItemLength * j)
        (ws.foldl (fun text w => if w.1 = j then w.2 else text) (t j)) ∧
      (ws.foldl (fun text w => if w.1 = j then w.2 else text) (t j)).length < entryInfoItemLength := by
  induction ws generalizing m t with
  | nil => exact h j
  | cons w ws ih =>
    obtain ⟨hclean, hfit⟩ := hws w List.mem_cons_self
    exact ih (writeItem_holds h hclean hfit) fun v hv => hws v (List.mem_cons_of_mem _ hv)

/-! ### The three groups -/

section Groups

variable {m : Mem} {t : ℕ → List Char}

theorem holdsItems_of (h : ∀ j, Holds m (entryInfoItemLength * j) (t j) ∧ (t j).length < entryInfoItemLength)
    (group items : ℕ) : HoldsItems m group items fun j => t (group + j) :=
  fun j _ => h (group + j)

/-- Where each item but the first of a group leaves room for the comma, the groups are joined. -/
theorem joinGroups_some
    (h : ∀ j, Holds m (entryInfoItemLength * j) (t j) ∧ (t j).length < entryInfoItemLength)
    (hcomma : ∀ j, (t j).head? ≠ some ',')
    (hfit : ∀ j < 16, j ≠ 0 → j ≠ 5 → j ≠ 12 → (t j).length + 2 ≤ entryInfoItemLength) :
    ∃ p, joinGroups m = some p ∧ p.mat = commaSeparated ((List.range 5).map t) ∧
      p.act = commaSeparated ((List.range 7).map fun j => t (5 + j)) ∧
      p.ctl = commaSeparated ((List.range 4).map fun j => t (12 + j)) ∧ ∀ c ∈ p.log, c.Safe := by
  obtain ⟨s₁, hs₁, hj₁⟩ := (joinLoop_spec [] (holdsItems_of h 0 5) (by omega) (by omega)).1
    fun j h1 hj => hfit (0 + j) (by omega) (by omega) (by omega) (by omega)
  obtain ⟨s₂, hs₂, hj₂⟩ := (joinLoop_spec s₁.2 (hj₁.later (holdsItems_of h 5 7) (by omega)) (by omega)
    (by omega)).1 fun j h1 hj => hfit (5 + j) (by omega) (by omega) (by omega) (by omega)
  have hlater := hj₂.later (hj₁.later (holdsItems_of h 12 4) (by omega)) (by omega)
  obtain ⟨s₃, hs₃, hj₃⟩ := (joinLoop_spec s₂.2 hlater (by omega) (by omega)).1
    fun j h1 hj => hfit (12 + j) (by omega) (by omega) (by omega) (by omega)
  -- the texts stay through the later joins, and are read back
  have htext₁ := hj₃.earlier (hj₂.earlier hj₁.text hj₁.len (by omega)) hj₁.len (by omega)
  have htext₂ := hj₃.earlier hj₂.text hj₂.len (by omega)
  have hlen₁ := hj₁.len
  have hlen₂ := hj₂.len
  have hlen₃ := hj₃.len
  unfold entryInfoItemLength at hlen₁ hlen₂ hlen₃
  have hread₁ := htext₁.cstr (n := entryInfoSize) (by unfold entryInfoSize; omega)
  have hread₂ := htext₂.cstr (n := entryInfoSize) (by unfold entryInfoSize; omega)
  have hread₃ := hj₃.text.cstr (n := entryInfoSize) (by unfold entryInfoSize; omega)
  refine ⟨readGroups s₃, ?_, ?_, ?_, ?_, ?_⟩
  · unfold joinGroups
    rw [hs₁]
    show (joinLoop 5 7 s₁).bind _ = _
    rw [hs₂]
    show (joinLoop 12 4 s₂).bind _ = _
    rw [hs₃]
    rfl
  · show skipComma (cstr s₃.1 _ _) = _
    rw [hread₁, skipComma_accText fun j => hcomma (0 + j)]
    simp only [Nat.zero_add]
  · show skipComma (cstr s₃.1 _ _) = _
    rw [hread₂, skipComma_accText fun j => hcomma (5 + j)]
  · show skipComma (cstr s₃.1 _ _) = _
    rw [hread₃, skipComma_accText fun j => hcomma (12 + j)]
  · intro c hc
    rcases hj₃.log c hc with hc | hsafe
    · rcases hj₂.log c hc with hc | hsafe
      · rcases hj₁.log c hc with hc | hsafe
        · exact absurd hc List.not_mem_nil
        · exact hsafe
      · exact hsafe
    · exact hsafe

/-- Where an item of the control is too long for the comma, there is no result. -/
theorem joinGroups_none
    (h : ∀ j, Holds m (entryInfoItemLength * j) (t j) ∧ (t j).length < entryInfoItemLength)
    (hlong : ∃ j, 1 ≤ j ∧ j < 4 ∧ entryInfoItemLength < (t (12 + j)).length + 2) : joinGroups m = none := by
  unfold joinGroups
  rcases joinLoop_cases [] (holdsItems_of h 0 5) (by omega) (by omega) with hnone | ⟨s₁, hs₁, hj₁⟩
  · rw [hnone]
    rfl
  rw [hs₁]
  show (joinLoop 5 7 s₁).bind _ = none
  have hitems₂ := hj₁.later (holdsItems_of h 5 7) (by omega)
  rcases joinLoop_cases s₁.2 hitems₂ (by omega) (by omega) with hnone | ⟨s₂, hs₂, hj₂⟩
  · rw [hnone]
    rfl
  rw [hs₂]
  show (joinLoop 12 4 s₂).bind _ = none
  have hlater := hj₂.later (hj₁.later (holdsItems_of h 12 4) (by omega)) (by omega)
  rw [(joinLoop_spec s₂.2 hlater (by omega) (by omega)).2 hlong]
  rfl

end Groups

/-! ### The texts of an entry -/

section Texts

variable {value : List Char} {name : String} {n : ℕ}

/-- A text without a terminator, of `n` characters at most. -/
structure Short (n : ℕ) (text : List Char) : Prop where
  clean : nul ∉ text
  length_le : text.length ≤ n

theorem quoted_length (name : String) (value : List Char) :
    (quoted name value).length = name.toList.length + value.length + 5 := by
  unfold quoted
  simp only [List.length_append]
  have h1 : "\"".toList.length = 1 := rfl
  have h3 : "\":\"".toList.length = 3 := rfl
  omega

theorem quoted_short (hname : nul ∉ name.toList) (h : Short n value) :
    Short (name.toList.length + n + 5) (quoted name value) := by
  refine ⟨?_, ?_⟩
  · unfold quoted
    simp only [List.mem_append, not_or]
    exact ⟨⟨⟨⟨by decide, hname⟩, by decide⟩, h.clean⟩, by decide⟩
  · have := h.length_le
    rw [quoted_length]
    omega

theorem quoted_head (name : String) (value : List Char) : (quoted name value).head? ≠ some ',' := by
  unfold quoted
  have hquote : "\"".toList = [Char.ofNat 34] := rfl
  simp only [hquote, List.cons_append, List.head?_cons]
  decide

theorem Short.append {text text' : List Char} {n' : ℕ} (h : Short n text) (h' : Short n' text') :
    Short (n + n') (text ++ text') := by
  refine ⟨?_, ?_⟩
  · rw [List.mem_append]
    exact fun hc => hc.elim h.clean h'.clean
  · rw [List.length_append]
    exact Nat.add_le_add h.length_le h'.length_le

theorem Short.cons {text : List Char} {c : Char} (h : Short n text) (hc : c ≠ nul) :
    Short (n + 1) (c :: text) :=
  ⟨by simp [hc.symm, h.clean], Nat.succ_le_succ h.length_le⟩

/-- A number below `10 ^ n`. -/
theorem decimal_short {k : ℕ} (hn : 0 < n) (h : k < 10 ^ n) : Short n (decimal k) := by
  refine ⟨fun hc => ?_, (Nat.length_toDigits_le_iff (by decide) hn).2 h⟩
  exact absurd (Nat.isDigit_of_mem_toDigits (by decide) (by decide) hc) (by decide)

theorem byte_short (sip mask k : UInt32) (h : (mask >>> k).toNat < 10 ^ 3) :
    Short 3 (decimal ((sip &&& mask) >>> k).toNat) := by
  refine decimal_short (by decide) (Nat.lt_of_le_of_lt ?_ h)
  rw [UInt32.toNat_shiftRight, UInt32.toNat_shiftRight, UInt32.toNat_and, Nat.shiftRight_eq_div_pow,
    Nat.shiftRight_eq_div_pow]
  exact Nat.div_le_div_right Nat.and_le_right

theorem dotted_short (ip : UInt32) : Short 15 (dotted ip) := by
  have hdot : '.' ≠ nul := by decide
  have hlast : Short 3 (decimal (beToCpu32 ip &&& 0x000000ff).toNat) := by
    refine decimal_short (by decide) (Nat.lt_of_le_of_lt ?_ (by decide : 255 < 10 ^ 3))
    rw [UInt32.toNat_and]
    exact Nat.and_le_right
  exact ((byte_short _ _ _ (by decide)).append ((byte_short _ _ _ (by decide)).cons hdot)).append
    ((byte_short _ _ _ (by decide)).cons hdot) |>.append (hlast.cons hdot)

theorem port_short (port : UInt16) : Short 5 (decimal (beToCpu16 port).toNat) :=
  decimal_short (by decide) (Nat.lt_of_lt_of_le (UInt16.toNat_lt _) (by decide))

theorem hex2_short (b : UInt8) : Short 2 (hex2 b) := by
  have hdigit : ∀ k < 16, Nat.digitChar k ≠ nul := by decide
  have hb := b.toNat_lt
  refine ⟨?_, Nat.le_refl 2⟩
  unfold hex2
  simp only [List.mem_cons, List.not_mem_nil, or_false, not_or]
  exact ⟨(hdigit _ (by omega)).symm, (hdigit _ (by omega)).symm⟩

theorem macText_short (mac : EtherAddr) : Short 17 (macText mac) := by
  have hcolon : ':' ≠ nul := by decide
  have hbyte : ∀ i, Short 3 (':' :: hex2 (macByte mac i)) := fun i => (hex2_short _).cons hcolon
  exact (hex2_short _).append (hbyte 1) |>.append (hbyte 2) |>.append (hbyte 3) |>.append (hbyte 4)
    |>.append (hbyte 5)

theorem fwdText_clean (env : PipeEnv) (fwd : UInt64) : nul ∉ fwdText env fwd := by
  unfold fwdText
  split_ifs
  · decide
  · decide
  · decide
  · decide
  · exact (env.pipeName fwd).clean

/-- Only the names of pipes are longer than four characters. -/
theorem fwdText_length_le {env : PipeEnv} {fwd : UInt64} (hn : 4 ≤ n) :
    (fwdText env fwd).length ≤ n ↔ (IsPipe fwd → (env.pipeName fwd).chars.length ≤ n) := by
  unfold fwdText IsPipe
  split_ifs with h0 hdrop hport hrss
  · simpa [h0] using hn
  · simpa [hdrop] using hn
  · simpa [hport] using hn
  · have hrss_length : "RSS".toList.length ≤ n := Nat.le_trans (by decide) hn
    simpa [hrss] using hrss_length
  · simp [h0, hdrop, hport, hrss]

end Texts

/-! ### An entry -/

section Entry

variable {env : PipeEnv} {x : FlowQoSEntry} {pipe : FlowQoSPipe} {w : ℕ × List Char}

theorem mem_onFlag {flags flag : UInt64} {i : ℕ} {text : List Char} (h : w ∈ onFlag flags flag i text) :
    w = (i, text) := by
  unfold onFlag at h
  split at h
  · exact List.mem_singleton.1 h
  · exact absurd h List.not_mem_nil

/-- The names of a pipe's forwards are all that is longer than 30 characters. -/
theorem mem_entryWrites (h : w ∈ entryWrites env x) : (Short 30 w.2 ∧ w.2.head? ≠ some ',') ∨
    ∃ pipe, x.pipe = some pipe ∧
      (w = (14, quoted "Match" (fwdText env (env.fwd pipe).matched_fwd)) ∨
        w = (15, quoted "Miss" (fwdText env (env.fwd pipe).unmatched_fwd))) := by
  have hshort : ∀ {i n : ℕ} {name : String} {value : List Char}, nul ∉ name.toList → Short n value →
      name.toList.length + n + 5 ≤ 30 → w = (i, quoted name value) →
      Short 30 w.2 ∧ w.2.head? ≠ some ',' := by
    rintro i n name value hname hvalue hle rfl
    have hq := quoted_short hname hvalue
    exact ⟨⟨hq.clean, Nat.le_trans hq.length_le hle⟩, quoted_head name value⟩
  have hconst : ∀ value : List Char, nul ∉ value → Short value.length value := fun _ h => ⟨h, Nat.le_refl _⟩
  simp only [entryWrites, matchWrites, actionWrites, controlWrites, List.mem_append] at h
  rcases h with (h | h) | h
  · left
    rcases h with (((((h | h) | h) | h) | h) | h) | h
    · exact hshort (by decide) (dotted_short _) (by decide) (mem_onFlag h)
    · exact hshort (by decide) (dotted_short _) (by decide) (mem_onFlag h)
    · exact hshort (by decide) (hconst _ (by decide)) (by decide) (mem_onFlag h)
    · exact hshort (by decide) (hconst _ (by decide)) (by decide) (mem_onFlag h)
    · exact hshort (by decide) (hconst _ (by decide)) (by decide) (mem_onFlag h)
    · exact hshort (by decide) (port_short _) (by decide) (mem_onFlag h)
    · exact hshort (by decide) (port_short _) (by decide) (mem_onFlag h)
  · left
    rcases h with (((((h | h) | h) | h) | h) | h) | h
    · exact hshort (by decide) (dotted_short _) (by decide) (mem_onFlag h)
    · exact hshort (by decide) (dotted_short _) (by decide) (mem_onFlag h)
    · exact hshort (by decide) (port_short _) (by decide) (mem_onFlag h)
    · exact hshort (by decide) (port_short _) (by decide) (mem_onFlag h)
    · exact hshort (by decide) (macText_short _) (by decide) (mem_onFlag h)
    · exact hshort (by decide) (macText_short _) (by decide) (mem_onFlag h)
    · exact hshort (by decide) (hconst _ (by decide)) (by decide) (mem_onFlag h)
  · rcases h with (h | h) | h
    · exact .inl (hshort (by decide) (hconst _ (by decide)) (by decide) (mem_onFlag h))
    · have hexpire : Short 20 (decimal x.expireTime.toNat) :=
        decimal_short (by decide) (Nat.lt_of_lt_of_le (UInt64.toNat_lt _) (by decide))
      exact .inl (hshort (by decide) hexpire (by decide) (mem_onFlag h))
    · right
      cases hpipe : x.pipe with
      | none =>
        rw [hpipe] at h
        exact absurd h List.not_mem_nil
      | some pipe =>
        rw [hpipe] at h
        exact ⟨pipe, rfl, List.mem_pair.1 h⟩

theorem itemText_cases (ws : List (ℕ × List Char)) (j : ℕ) :
    itemText ws j = [] ∨ ∃ w ∈ ws, w.1 = j ∧ itemText ws j = w.2 := by
  induction ws using List.reverseRecOn with
  | nil => exact .inl rfl
  | append_singleton ws w ih =>
    have hlast : itemText (ws ++ [w]) j = if w.1 = j then w.2 else itemText ws j := by
      unfold itemText
      rw [List.foldl_append]
      rfl
    by_cases hj : w.1 = j
    · refine .inr ⟨w, by simp, hj, ?_⟩
      rw [hlast, if_pos hj]
    · rw [hlast, if_neg hj]
      refine ih.imp_right ?_
      rintro ⟨v, hv, hvj, hvt⟩
      exact ⟨v, List.mem_append_left _ hv, hvj, hvt⟩

/-- The texts that are left in the items are those of the entry. -/
theorem itemText_entry (env : PipeEnv) (x : FlowQoSEntry) :
    (List.range 5).map (itemText (entryWrites env x)) = matchItems x.match_ ∧
    (List.range 7).map (fun j => itemText (entryWrites env x) (5 + j)) = actionItems x.action ∧
    (List.range 4).map (fun j => itemText (entryWrites env x) (12 + j)) = controlItems env x := by
  have hnil : ∀ flags flag i text j, itemText (onFlag flags flag i text) j =
      if flags &&& flag ≠ 0 ∧ i = j then text else [] :=
    fun flags flag i text j => itemText_onFlag [] flags flag i j text
  have hpair : ∀ ws (a b : List Char) j, itemText (ws ++ [(14, a), (15, b)]) j =
      if 15 = j then b else if 14 = j then a else itemText ws j := by
    intro ws a b j
    unfold itemText
    rw [List.foldl_append]
    rfl
  have hrange5 : List.range 5 = [0, 1, 2, 3, 4] := rfl
  have hrange7 : List.range 7 = [0, 1, 2, 3, 4, 5, 6] := rfl
  have hrange4 : List.range 4 = [0, 1, 2, 3] := rfl
  unfold matchItems actionItems controlItems onItem
  cases hpipe : x.pipe with
  | none =>
    simp [entryWrites, matchWrites, actionWrites, controlWrites, hpipe, hrange5, hrange7, hrange4,
      ← List.append_assoc, itemText_onFlag, hnil]
  | some pipe =>
    simp [entryWrites, matchWrites, actionWrites, controlWrites, hpipe, hrange5, hrange7, hrange4,
      ← List.append_assoc, itemText_onFlag, hnil, hpair]

/-- The names are short enough for their items and for the comma. -/
def NamesFit (env : PipeEnv) (x : FlowQoSEntry) : Prop :=
  ∀ pipe, x.pipe = some pipe →
    (IsPipe (env.fwd pipe).matched_fwd → (env.pipeName (env.fwd pipe).matched_fwd).chars.length ≤ 20) ∧
    (IsPipe (env.fwd pipe).unmatched_fwd → (env.pipeName (env.fwd pipe).unmatched_fwd).chars.length ≤ 21)

theorem match_length (value : List Char) : (quoted "Match" value).length = value.length + 10 := by
  rw [quoted_length]
  have hname : "Match".toList.length = 5 := rfl
  omega

theorem miss_length (value : List Char) : (quoted "Miss" value).length = value.length + 9 := by
  rw [quoted_length]
  have hname : "Miss".toList.length = 4 := rfl
  omega

/-- What is left in the items of an entry whose writes fit. -/
theorem dump_holds (hfit : ∀ w ∈ entryWrites env x, w.2.length + 1 ≤ entryInfoItemLength) (j : ℕ) :
    Holds (dumpFlowQoSEntry env x) (entryInfoItemLength * j) (itemText (entryWrites env x) j) ∧
      (itemText (entryWrites env x) j).length < entryInfoItemLength := by
  refine writes_hold (t := fun _ => []) (fun j => ⟨⟨nofun, rfl, List.not_mem_nil⟩, by decide⟩)
    (fun w hw => ?_) j
  refine ⟨?_, hfit w hw⟩
  rcases mem_entryWrites hw with ⟨hshort, -⟩ | ⟨pipe, -, rfl | rfl⟩
  · exact hshort.clean
  · exact (quoted_short (n := (fwdText env (env.fwd pipe).matched_fwd).length) (by decide)
      ⟨fwdText_clean env _, Nat.le_refl _⟩).clean
  · exact (quoted_short (n := (fwdText env (env.fwd pipe).unmatched_fwd).length) (by decide)
      ⟨fwdText_clean env _, Nat.le_refl _⟩).clean

/-- With names that fit, no item is longer than 30 characters. -/
theorem NamesFit.length_le (h : NamesFit env x) (hw : w ∈ entryWrites env x) : w.2.length ≤ 30 := by
  rcases mem_entryWrites hw with ⟨hshort, -⟩ | ⟨pipe, hpipe, rfl | rfl⟩
  · exact hshort.length_le
  · have hname := (fwdText_length_le (by decide)).2 (h pipe hpipe).1
    show (quoted "Match" _).length ≤ 30
    rw [match_length]
    omega
  · have hname := (fwdText_length_le (by decide)).2 (h pipe hpipe).2
    show (quoted "Miss" _).length ≤ 30
    rw [miss_length]
    omega

theorem NamesFit.formats (h : NamesFit env x) : Formats env x := by
  have hfit : ∀ w ∈ entryWrites env x, w.2.length + 1 ≤ entryInfoItemLength := by
    intro w hw
    have := h.length_le hw
    unfold entryInfoItemLength
    omega
  have hcomma : ∀ j, (itemText (entryWrites env x) j).head? ≠ some ',' := by
    intro j
    rcases itemText_cases (entryWrites env x) j with hnil | ⟨w, hw, -, ht⟩
    · rw [hnil]
      nofun
    · rw [ht]
      rcases mem_entryWrites hw with ⟨-, hhead⟩ | ⟨pipe, -, rfl | rfl⟩
      · exact hhead
      · exact quoted_head _ _
      · exact quoted_head _ _
  have hroom : ∀ j < 16, j ≠ 0 → j ≠ 5 → j ≠ 12 →
      (itemText (entryWrites env x) j).length + 2 ≤ entryInfoItemLength := by
    intro j _ _ _ _
    unfold entryInfoItemLength
    rcases itemText_cases (entryWrites env x) j with hnil | ⟨w, hw, -, ht⟩
    · rw [hnil]
      decide
    · rw [ht]
      have := h.length_le hw
      omega
  obtain ⟨p, hp, hmat, hact, hctl, hsafe⟩ := joinGroups_some (dump_holds hfit) hcomma hroom
  obtain ⟨hmatch, haction, hcontrol⟩ := itemText_entry env x
  rw [hmatch] at hmat
  rw [haction] at hact
  rw [hcontrol] at hctl
  refine ⟨hfit, ?_, ?_, ?_⟩
  · unfold printFlowQoSEntry
    rw [hp, ← hmat, ← hact, ← hctl]
    rfl
  · unfold printFlowQoSEntryToCmdline
    rw [hp, ← hmat, ← hact, ← hctl]
    rfl
  · intro q hq
    obtain rfl : p = q := Option.some_inj.1 (hp.symm.trans hq)
    exact hsafe

theorem Formats.namesFit (h : Formats env x) : NamesFit env x := by
  intro pipe hpipe
  have hroom : ∀ j, 1 ≤ j → j < 4 →
      (itemText (entryWrites env x) (12 + j)).length + 2 ≤ entryInfoItemLength := by
    intro j h1 h4
    by_contra hlong
    have hnone := joinGroups_none (dump_holds h.fits) ⟨j, h1, h4, by omega⟩
    have hlog := h.log
    unfold printFlowQoSEntry at hlog
    rw [hnone] at hlog
    cases hlog
  have hcontrol := (itemText_entry env x).2.2
  unfold controlItems at hcontrol
  rw [hpipe] at hcontrol
  have hrange4 : List.range 4 = [0, 1, 2, 3] := rfl
  simp only [hrange4, List.map_cons, List.map_nil, List.cons.injEq, Option.map_some,
    Option.getD_some] at hcontrol
  have hmatch := hroom 2 (by decide) (by decide)
  have hmiss := hroom 3 (by decide) (by decide)
  rw [hcontrol.2.2.1, match_length] at hmatch
  rw [hcontrol.2.2.2.1, miss_length] at hmiss
  unfold entryInfoItemLength at hmatch hmiss
  exact ⟨(fwdText_length_le (by decide)).1 (by omega), (fwdText_length_le (by decide)).1 (by omega)⟩

end Entry

/-- **Formatting.** For every entry and all names that the field `pipeName` holds: the items fit, and the
print functions give the items that are not empty with commas between them and write where they may,
exactly when the pipe it goes to on a match has a name of at most 20 characters, and the pipe it goes to
on a miss one of at most 21. -/
theorem formats_iff (env : PipeEnv) (x : FlowQoSEntry) : Formats env x ↔ NamesFit env x :=
  ⟨Formats.namesFit, NamesFit.formats⟩

/-- A pipe that goes to another one, with the longest name, on a match. -/
theorem long_name_overflows :
    ¬ Formats ⟨fun _ => ⟨0x100200300, 0⟩, fun _ => ⟨List.replicate 29 'p', by decide, by decide⟩⟩
      { pipe := some (buildPipe 0 0 0) } := by
  intro h
  have hfits := h.fits (14, quoted "Match" (List.replicate 29 'p')) (by decide)
  exact absurd hfits (by decide)

end FlowQoS.Pipe
