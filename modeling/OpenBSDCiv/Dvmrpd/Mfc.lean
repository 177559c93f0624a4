import OpenBSDCiv.Lib.Machine
import OpenBSDCiv.Dvmrpd.Impl.Srt

namespace Dvmrpd

open List

-- prefixes and origins are in host byte order
def RtNode.mask (rn : RtNode) : UInt32 :=
  .ofNat (prefixlen2mask rn.prefixlen.toNat).ntohl

def RtNode.covers (rn : RtNode) (src : UInt32) : Bool :=
  rn.prefix_ = src &&& rn.mask

def rtCompare (a b : RtNode) : Int :=
  if a.prefixlen < b.prefixlen then -1
  else if a.prefixlen > b.prefixlen then 1
  else if a.prefix_ < b.prefix_ then -1
  else if a.prefix_ > b.prefix_ then 1
  else 0

-- `RB_FOREACH` goes by the routes in the order of `rt_compare`
def rtMatchOrigin (rt : List RtNode) (src : UInt32) : Option RtNode :=
  (rt.mergeSort (rtCompare · · ≤ 0)).find? (·.covers src)

structure MfcNode where
  origin : UInt32
  group : UInt32
  ifindex : Nat
  ttls : Nat → UInt8

inductive MfcMsg where
  | mfcAdd (m : MfcNode)
  | sendPrune (origin netmask group nexthop : UInt32) (ifindex : Nat)

def mfcUpdateNode (rn : RtNode) (mn : MfcNode) : MfcNode × List MfcMsg :=
  if rn.covers mn.origin then
    let mn := { mn with ifindex := rn.ifindex, ttls := rn.ttls }
    let found := (range MAXVIFS).any (mn.ttls · ≠ 0)
    (mn, .mfcAdd mn :: if ¬found ∧ ¬rn.connected then
      [.sendPrune (mn.origin &&& rn.mask) rn.mask mn.group rn.nexthop mn.ifindex] else [])
  else
    (mn, [])

def mfcUpdateSource (mfc : List MfcNode) (rn : RtNode) : List MfcNode × List MfcMsg :=
  (mfc.map fun mn => (mfcUpdateNode rn mn).1, mfc.flatMap fun mn => (mfcUpdateNode rn mn).2)

def MostSpecific (rt : List RtNode) (src : UInt32) : Option RtNode → Prop
  | none => ∀ rn ∈ rt, ¬rn.covers src
  | some rn => rn ∈ rt ∧ rn.covers src ∧ ∀ rn' ∈ rt, rn'.covers src → rn'.prefixlen ≤ rn.prefixlen

def MfcNode.Right (rt : List RtNode) (mn : MfcNode) : Prop :=
  ∀ rn, MostSpecific rt mn.origin (some rn) → mn.ifindex = rn.ifindex ∧ mn.ttls = rn.ttls

structure RtState where
  rt : List RtNode
  nodup : (rt.map RtNode.key).Nodup
  mfc : List MfcNode

inductive RtChange where
  | insert (rn : RtNode)
  | update (rn : RtNode)
  | remove (key : UInt32 × UInt8)

-- the node of the route is changed in place
def rtReplace (rt : List RtNode) (rn : RtNode) : List RtNode :=
  rt.map fun r => if r.key = rn.key then rn else r

theorem rtReplace_key (rn r : RtNode) : (if r.key = rn.key then rn else r).key = r.key := by
  split
  . next heq => exact heq.symm
  . rfl

theorem rtReplace_keys (rt : List RtNode) (rn : RtNode) : (rtReplace rt rn).map RtNode.key = rt.map RtNode.key := by
  rw [rtReplace, map_map]
  exact map_congr_left fun r _ => rtReplace_key rn r

-- only a change of a route that is in the table updates the cache
def rtStep (s : RtState) : RtChange → Option RtState
  | .insert rn =>
    some (if h : rn.key ∈ s.rt.map RtNode.key then s else ⟨rn :: s.rt, nodup_cons.mpr ⟨h, s.nodup⟩, s.mfc⟩)
  | .update rn =>
    if rn.key ∈ s.rt.map RtNode.key then
      some ⟨rtReplace s.rt rn, (rtReplace_keys s.rt rn).symm ▸ s.nodup, (mfcUpdateSource s.mfc rn).1⟩
    else
      none
  | .remove key => some ⟨s.rt.filter (·.key ≠ key), s.nodup.sublist (filter_sublist.map _), s.mfc⟩

structure Forwards (s : RtState) : Prop where
  lookup : ∀ src, MostSpecific s.rt src (rtMatchOrigin s.rt src)
  entries : ∀ mn ∈ s.mfc, mn.Right s.rt

def Overlap (a b : RtNode) : Prop :=
  ∃ src, a.covers src ∧ b.covers src

def Apart (s : RtState) : RtChange → Prop
  | .insert rn => (∀ rn' ∈ s.rt, ¬Overlap rn rn') ∧ ∀ mn ∈ s.mfc, ¬rn.covers mn.origin
  | .update _ => True
  | .remove _ => True

variable {rt : List RtNode} {src : UInt32} {rn : RtNode} {s s' : RtState}

theorem rtMatchOrigin_eq_some (h : rtMatchOrigin rt src = some rn)
    : rn ∈ rt ∧ rn.covers src ∧ ∀ rn' ∈ rt, rn'.covers src → rn.prefixlen ≤ rn'.prefixlen := by
  have hsorted : (rt.mergeSort (rtCompare · · ≤ 0)).Pairwise (rtCompare · · ≤ 0) := by
    refine (pairwise_mergeSort ?_ ?_ _).imp (by simp)
    . grind [rtCompare]
    . grind [rtCompare]
  rcases find?_eq_some_iff_append.mp h with ⟨hcovers, front, back, heq, hfront⟩
  rw [heq, pairwise_append, pairwise_cons] at hsorted
  have hmem (rn' : RtNode) : rn' ∈ rt ↔ rn' ∈ front ++ rn :: back := by
    rw [← heq, mem_mergeSort]
  refine ⟨(hmem rn).mpr (by simp), hcovers, ?_⟩
  intro rn' hrn' hcovers'
  rcases mem_append.mp ((hmem rn').mp hrn') with hin | hin
  . exact absurd hcovers' (by simpa using hfront rn' hin)
  rcases mem_cons.mp hin with rfl | hin
  . exact UInt8.le_refl _
  . grind [rtCompare, hsorted.2.1.1 rn' hin]

theorem RtState.eq_of_lookup (h : MostSpecific s.rt src (rtMatchOrigin s.rt src)) {a b : RtNode} (ha : a ∈ s.rt)
    (hb : b ∈ s.rt) (hacovers : a.covers src) (hbcovers : b.covers src)
    : a = b := by
  cases hres : rtMatchOrigin s.rt src with
  | none =>
    rw [hres] at h
    exact absurd hacovers (h a ha)
  | some rn =>
    rw [hres] at h
    have hleast := (rtMatchOrigin_eq_some hres).2.2
    have hsame : ∀ x ∈ s.rt, x.covers src → x.prefixlen = rn.prefixlen :=
      fun x hx hcovers => UInt8.le_antisymm (h.2.2 x hx hcovers) (hleast x hx hcovers)
    have hlen := (hsame a ha hacovers).trans (hsame b hb hbcovers).symm
    have hmask : a.mask = b.mask := by rw [RtNode.mask, hlen, RtNode.mask]
    apply inj_on_of_nodup_map s.nodup ha hb
    rw [RtNode.key, RtNode.key, of_decide_eq_true hacovers, of_decide_eq_true hbcovers, hmask, hlen]

-- a route that covers an address is the only one that does
structure Separate (s : RtState) : Prop where
  routes : ∀ a ∈ s.rt, ∀ b ∈ s.rt, Overlap a b → a = b
  entries : ∀ mn ∈ s.mfc, ∀ rn ∈ s.rt, rn.covers mn.origin → mn.ifindex = rn.ifindex ∧ mn.ttls = rn.ttls

theorem Separate.forwards (h : Separate s) : Forwards s where
  lookup := by
    intro src
    cases hres : rtMatchOrigin s.rt src with
    | none => simpa [rtMatchOrigin, MostSpecific] using hres
    | some rn =>
      rcases rtMatchOrigin_eq_some hres with ⟨hmem, hcovers, _⟩
      refine ⟨hmem, hcovers, ?_⟩
      intro rn' hrn' hcovers'
      rw [h.routes rn' hrn' rn hmem ⟨src, hcovers', hcovers⟩]
      exact UInt8.le_refl _
  entries := fun mn hmn rn hbest => h.entries mn hmn rn hbest.1 hbest.2.1

theorem RtNode.covers_congr {a b : RtNode} (h : a.key = b.key) (src : UInt32) : a.covers src = b.covers src := by
  rw [covers, mask, (Prod.mk.inj h).1, (Prod.mk.inj h).2]
  rfl

theorem mem_rtReplace {r : RtNode} (h : r ∈ rtReplace rt rn)
    : ∃ r' ∈ rt, (if r'.key = rn.key then rn else r') = r ∧ r.key = r'.key := by
  rcases mem_map.mp h with ⟨r', hr', rfl⟩
  exact ⟨r', hr', rfl, rtReplace_key rn r'⟩

theorem Separate.update (h : Separate s) (hkey : rn.key ∈ s.rt.map RtNode.key)
    : Separate ⟨rtReplace s.rt rn, (rtReplace_keys s.rt rn).symm ▸ s.nodup, (mfcUpdateSource s.mfc rn).1⟩ := by
  have hroutes : ∀ a ∈ rtReplace s.rt rn, ∀ b ∈ rtReplace s.rt rn, Overlap a b → a = b := by
    rintro a ha b hb ⟨src, hacovers, hbcovers⟩
    rcases mem_rtReplace ha with ⟨a', ha', rfl, hakey⟩
    rcases mem_rtReplace hb with ⟨b', hb', rfl, hbkey⟩
    rw [RtNode.covers_congr hakey] at hacovers
    rw [RtNode.covers_congr hbkey] at hbcovers
    rw [h.routes a' ha' b' hb' ⟨src, hacovers, hbcovers⟩]
  have hrn : rn ∈ rtReplace s.rt rn := by
    rcases mem_map.mp hkey with ⟨r, hr, heq⟩
    exact mem_map.mpr ⟨r, hr, if_pos heq⟩
  constructor
  . exact hroutes
  intro mn hmn r hr hcovers
  rcases mem_map.mp hmn with ⟨mn', hmn', rfl⟩
  unfold mfcUpdateNode at hcovers ⊢
  split at hcovers
  . next hchanged =>
    rw [hroutes r hr rn hrn ⟨_, hcovers, hchanged⟩, if_pos hchanged]
    exact ⟨rfl, rfl⟩
  . next hsame =>
    rw [if_neg hsame]
    rcases mem_rtReplace hr with ⟨r', hr', rfl, _⟩
    split at hcovers
    . exact absurd hcovers hsame
    . next hother =>
      rw [if_neg hother]
      exact h.entries mn' hmn' r' hr' hcovers

theorem rtStep_separate {change : RtChange} (h : Separate s) (hapart : Apart s change)
    (hstep : rtStep s change = some s')
    : Separate s' := by
  cases change with
  | insert rn =>
    cases hstep
    split
    . exact h
    constructor
    . intro a ha b hb hoverlap
      have hsymm : Overlap b a := hoverlap.imp fun _ => And.symm
      rcases mem_cons.mp ha with rfl | ha'
      . rcases mem_cons.mp hb with rfl | hb'
        . rfl
        . exact absurd hoverlap (hapart.1 b hb')
      . rcases mem_cons.mp hb with rfl | hb'
        . exact absurd hsymm (hapart.1 a ha')
        . exact h.routes a ha' b hb' hoverlap
    . intro mn hmn r hr hcovers
      rcases mem_cons.mp hr with rfl | hr
      . exact absurd hcovers (hapart.2 mn hmn)
      . exact h.entries mn hmn r hr hcovers
  | update rn =>
    rw [rtStep] at hstep
    split at hstep
    . next hkey =>
      cases hstep
      exact h.update hkey
    . contradiction
  | remove key =>
    cases hstep
    constructor
    . intro a ha b hb
      exact h.routes a (mem_of_mem_filter ha) b (mem_of_mem_filter hb)
    . intro mn hmn r hr
      exact h.entries mn hmn r (mem_of_mem_filter hr)

theorem mfcRun_forwards (s s' : RtState) (changes : List RtChange)
    (hroutes : ∀ a ∈ s.rt, ∀ b ∈ s.rt, Overlap a b → a = b) (hentries : ∀ mn ∈ s.mfc, mn.Right s.rt)
    (hapart : Machine.RunMeets rtStep Apart s changes) (hrun : Machine.run rtStep s changes = some s')
    : Forwards s' := by
  have hstart : Separate s := by
    refine ⟨hroutes, ?_⟩
    intro mn hmn rn hrn hcovers
    apply hentries mn hmn rn ⟨hrn, hcovers, ?_⟩
    intro rn' hrn' hcovers'
    rw [hroutes rn' hrn' rn hrn ⟨_, hcovers', hcovers⟩]
    exact UInt8.le_refl _
  have hend : Separate s' :=
    Machine.run_inv (motive := Separate) (fun _ _ _ h hapart hstep => rtStep_separate h hapart hstep) hrun hapart hstart
  exact hend.forwards

theorem not_overlap {a b : RtNode} (h : a.prefix_ &&& b.mask ≠ b.prefix_ &&& a.mask) : ¬Overlap a b := by
  rintro ⟨src, ha, hb⟩
  apply h
  rw [of_decide_eq_true ha, of_decide_eq_true hb, UInt32.and_assoc, UInt32.and_assoc, UInt32.and_comm a.mask]

-- 10.0.0.0/8
def wide : RtNode :=
  rrNewRt ⟨0x0a000000, 8, 1, 1, 1⟩ 1 false

-- 10.1.0.0/16
def narrow : RtNode :=
  rrNewRt ⟨0x0a010000, 16, 2, 1, 2⟩ 1 false

-- 172.16.0.0/12
def beside : RtNode :=
  rrNewRt ⟨0xac100000, 12, 3, 1, 3⟩ 1 false

def single : RtState :=
  ⟨[wide], by decide, [⟨0x0a010001, 0xe1000001, 1, wide.ttls⟩]⟩

-- a second route comes, and then the upstream interface and a downstream interface of the first one change
def moves : List RtChange :=
  [.insert beside, .update { wide with ifindex := 4, ttls := Function.update wide.ttls 2 1 }]

theorem mfcRun_forwards_moves
    : ∃ s', Machine.run rtStep single moves = some s' ∧ s'.mfc.map MfcNode.ifindex = [4] ∧ Forwards s' := by
  refine ⟨_, rfl, rfl, mfcRun_forwards single _ moves ?_ ?_ ?_ rfl⟩
  . simp [single]
  . simp [single, MfcNode.Right, MostSpecific, wide, rrNewRt]
  . refine ⟨⟨?_, ?_⟩, fun s' _ => ⟨trivial, fun _ _ => trivial⟩⟩
    . rintro rn' hrn'
      rw [mem_singleton.mp hrn']
      exact not_overlap (by decide)
    . rintro mn hmn
      rw [mem_singleton.mp hmn]
      decide

def nested : RtState :=
  ⟨[wide, narrow], by decide, [⟨0x0a010001, 0xe1000001, 2, narrow.ttls⟩]⟩

theorem mfcRun_not_forwards
    : (∀ mn ∈ nested.mfc, mn.Right nested.rt) ∧ ∃ s', Machine.run rtStep nested [.update wide] = some s'
      ∧ ¬MostSpecific s'.rt 0x0a010001 (rtMatchOrigin s'.rt 0x0a010001) ∧ ¬∀ mn ∈ s'.mfc, mn.Right s'.rt := by
  have hspecific : MostSpecific [wide, narrow] 0x0a010001 (some narrow) := by
    refine ⟨by simp, by decide, ?_⟩
    simp only [mem_cons, not_mem_nil, or_false, forall_eq_or_imp, forall_eq]
    decide
  have hrt : rtReplace nested.rt wide = [wide, narrow] := rfl
  refine ⟨?_, _, rfl, ?_, ?_⟩
  . intro mn hmn rn hbest
    rw [mem_singleton.mp hmn] at hbest ⊢
    have hlen := hbest.2.2 narrow (by simp [nested]) (by decide)
    rcases mem_pair.mp hbest.1 with rfl | rfl
    . exact absurd hlen (by decide)
    . exact ⟨rfl, rfl⟩
  . intro h
    have heq : wide = narrow := RtState.eq_of_lookup h (by simp [hrt]) (by simp [hrt]) (by decide) (by decide)
    exact absurd (congrArg RtNode.prefixlen heq) (by decide)
  . intro h
    have hright := h _ mem_cons_self narrow hspecific
    exact absurd hright.1 (by decide)

end Dvmrpd
