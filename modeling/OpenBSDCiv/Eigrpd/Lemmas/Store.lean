import OpenBSDCiv.Eigrpd.Impl.Store
import OpenBSDCiv.Eigrpd.Lemmas.Lifetime
import OpenBSDCiv.Eigrpd.Lemmas.Lookup
import OpenBSDCiv.Eigrpd.Lemmas.Progress

namespace Eigrpd

open List Option Store Work Pool
namespace Store

open Keyed

def Computes (r : Option Store) (ok : Prop) (s : Rde) : Prop :=
  ok ∧ (∃ m, r = some m ∧ m.rde = s) ∨ ¬ok ∧ r = none

theorem Computes.isSome_iff {r : Option Store} {ok : Prop} {s : Rde} (h : Computes r ok s)
    : r.isSome ↔ ok := by
  rcases h with ⟨hok, m, rfl, _⟩ | ⟨hok, rfl⟩
  . exact iff_of_true rfl hok
  . exact iff_of_false Bool.false_ne_true hok

variable {m : Store}

theorem computes_some {ok : Prop} {s : Rde} (hok : ok) (h : m.rde = s)
    : Computes (some m) ok s :=
  Or.inl ⟨hok, m, rfl, h⟩

variable {rn : RtNode}

section

variable {m : Store} {p : Nat}

variable {w : Work}

theorem start_eta (hw : w.freed = false) : { rn := w.rn, freed := false, out := w.out } = w := by
  cases w
  simp_all

theorem node?_of_live (hw : w.freed = false) : w.node? = some w.rn := by
  simp [node?, hw]

theorem node?_of_freed (hw : w.freed = true) : w.node? = none := by
  simp [node?, hw]

theorem call_start (hread : m.nodes.read p = some rn) (hout : m.out = []) (f : Work → Work)
    : m.call p f = some (m.put p (f (start rn))) := by
  rw [call, hread, hout]
  rfl

theorem put_nbrs (w : Work) : (m.put p w).nbrs = m.nbrs :=
  rfl

theorem put_put (hw : w.freed = false) (w' : Work) : (m.put p w).put p w' = m.put p w' := by
  have hnodes : (m.nodes.put p w.node?).put p w'.node? = m.nodes.put p w'.node? := by
    rw [node?_of_live hw]
    exact put_write m.nodes p w.rn w'.node?
  unfold put
  rw [hnodes]

section

variable (hp : p ∈ m.nodes.members) {w : Work}

include hp in
theorem call_put (hw : w.freed = false) (f : Work → Work)
    : (m.put p w).call p f = some (m.put p (f w)) := by
  have hread : (m.put p w).nodes.read p = some w.rn := by
    rw [put, read_put _ hp, if_pos rfl, node?_of_live hw]
  rw [call, hread, map_some, put_put hw]
  exact congrArg (fun w => some (m.put p (f w))) (start_eta hw)

include hp in
theorem callReturning_put {α : Type} (hw : w.freed = false) (f : Work → Work × α)
    : (m.put p w).callReturning p f = some (m.put p (f w).1, (f w).2) := by
  have hread : (m.put p w).nodes.read p = some w.rn := by
    rw [put, read_put _ hp, if_pos rfl, node?_of_live hw]
  rw [callReturning, hread, map_some]
  have heta : { rn := w.rn, freed := false, out := (m.put p w).out } = w := start_eta hw
  dsimp only
  rw [heta, put_put hw]

include hp in
theorem call_put_freed (hw : w.freed = true) (f : Work → Work) : (m.put p w).call p f = none := by
  have hread : (m.put p w).nodes.read p = none := by
    rw [put, read_put _ hp, if_pos rfl, node?_of_freed hw]
  rw [call, hread]
  rfl

end

section

variable {eigrp : Eigrp} {ri : Rinfo}

theorem rtFind_rde : (m.rtFind eigrp ri).bind m.nodes.read = Eigrpd.rtFind m.rde eigrp ri :=
  find_bind_read m.nodes _

theorem rtFind_some (h : m.rtFind eigrp ri = some p)
    : p ∈ m.nodes.members ∧ ∃ rn, m.nodes.read p = some rn ∧ Eigrpd.rtFind m.rde eigrp ri = some rn := by
  rcases Pool.find_some m.nodes h with ⟨hp, rn, hread, _⟩
  refine ⟨hp, rn, hread, ?_⟩
  rw [← rtFind_rde, h]
  exact hread

theorem put_rde (hd : DistinctKeys m.rde) (h : m.rtFind eigrp ri = some p) (w : Work)
    : (m.put p w).rde = m.rde.commit eigrp ri w := by
  rcases rtFind_some h with ⟨hp, rn, hread, hfind⟩
  rw [rtFind_eq] at hfind
  have hkey := (find_some hfind).2
  unfold rde put Rde.commit
  rw [view_put_key m.nodes hd hp hread, hkey]
  congr 2
  funext rn'
  simp only [matches_iff]

theorem greater_congr {rn rn' : RtNode} (h : rn.key = rn'.key) (tmp : RtNode)
    : greater rn tmp = greater rn' tmp := by
  have heigrp : rn.eigrp = rn'.eigrp := congrArg RtKey.eigrp h
  have hlen : rn.prefixlen = rn'.prefixlen := congrArg RtKey.prefixlen h
  have haddr : eigrpAddrcmp rn.eigrp.af tmp.prefix_ rn.prefix_ = eigrpAddrcmp rn.eigrp.af tmp.prefix_ rn'.prefix_ := by
    have hbytes := congrArg RtKey.addr h
    unfold RtNode.key RtKey.of at hbytes
    rw [← heigrp] at hbytes
    unfold eigrpAddrcmp EigrpdAddr.ntohl
    cases haf : rn.eigrp.af with
    | inet | inet6 =>
      simp only [haf] at hbytes
      simp only [hbytes]
  unfold greater
  rw [haddr, heigrp, hlen]

theorem put_rtNew_rde {w : Work} (hw : w.rn.key = ri.key eigrp)
    : ((m.rtNew eigrp ri).1.put (m.rtNew eigrp ri).2 w).rde = m.rde.add w := by
  have hview := view_put_insert m.nodes (greater (Eigrpd.rtNew eigrp ri)) (Eigrpd.rtNew eigrp ri) w.node?
  unfold rde put rtNew Rde.add
  rw [hview]
  cases hnode : w.node? with
  | none => rfl
  | some rn =>
    have hgreater : greater (Eigrpd.rtNew eigrp ri) = greater rn := by
      funext tmp
      apply greater_congr
      rw [node?_key hw rn hnode]
      rfl
    rw [hgreater]
    rfl

end

end

section

variable (conf : Conf) {m : Store} (hd : DistinctKeys m.rde) (hout : m.out = [])

theorem rtNew_read (m : Store) (eigrp : Eigrp) (ri : Rinfo)
    : (m.rtNew eigrp ri).1.nodes.read (m.rtNew eigrp ri).2 = some (Eigrpd.rtNew eigrp ri) :=
  read_insert m.nodes _ _

theorem rtNew_mem (m : Store) (eigrp : Eigrp) (ri : Rinfo)
    : (m.rtNew eigrp ri).2 ∈ (m.rtNew eigrp ri).1.nodes.members :=
  mem_insert m.nodes _ _

theorem rtFind_none {eigrp : Eigrp} {ri : Rinfo} (h : m.rtFind eigrp ri = none)
    : Eigrpd.rtFind m.rde eigrp ri = none := by
  rw [← rtFind_rde, h]
  rfl

include hd hout in
theorem rdeCheckUpdate_computes (eigrp : Eigrp) (nbr : RdeNbr) (ri : Rinfo)
    : Computes (m.rdeCheckUpdate conf eigrp nbr ri) True (Eigrpd.rdeCheckUpdate conf m.rde eigrp nbr ri).1 := by
  unfold rdeCheckUpdate
  cases hfind : m.rtFind eigrp ri with
  | none =>
    have hnone := rtFind_none hfind
    by_cases hdelay : ri.metric.delay = eigrpInfiniteMetric
    . simp only [hdelay, ↓reduceIte]
      apply computes_some trivial
      simp only [Eigrpd.rdeCheckUpdate, hnone, hdelay, ↓reduceIte]
    have hnew := call_start (rtNew_read m eigrp ri) hout (fun w => routeNew conf w nbr ri)
    simp only [hdelay, ↓reduceIte, bind_eq_bind]
    rw [hnew, bind_some, call_put (rtNew_mem m eigrp ri) rfl]
    apply computes_some trivial
    rw [put_rtNew_rde]
    . simp only [Eigrpd.rdeCheckUpdate, hnone, hdelay, ↓reduceIte]
      rfl
    . rw [rdeCheckUpdate.switch_key, routeNew_key]
  | some p =>
    rcases rtFind_some hfind with ⟨hp, rn, hread, hsome⟩
    have hset := call_start hread hout (fun w => routeSet conf w nbr ri)
    have hkept := (routeSet_quiet conf (start rn) nbr ri).freed
    simp only [bind_eq_bind]
    rw [hread, bind_some, hset, bind_some, call_put hp hkept]
    apply computes_some trivial
    rw [put_rde hd hfind, Eigrpd.rdeCheckUpdate, hsome]
    rfl

include hd hout in
theorem rdeCheckReply_computes (eigrp : Eigrp) (nbr : RdeNbr) (ri : Rinfo) (siareply : Bool)
    : Computes (m.rdeCheckReply conf eigrp nbr ri siareply) True
      (Eigrpd.rdeCheckReply conf m.rde eigrp nbr ri siareply).1 := by
  unfold rdeCheckReply
  cases hfind : m.rtFind eigrp ri with
  | none =>
    apply computes_some trivial
    rw [Eigrpd.rdeCheckReply, rtFind_none hfind]
  | some p =>
    rcases rtFind_some hfind with ⟨hp, rn, hread, hsome⟩
    dsimp only
    rw [call_start hread hout]
    apply computes_some trivial
    rw [put_rde hd hfind, Eigrpd.rdeCheckReply, hsome]
    rfl

theorem rdeCheckQuery.found_eq {p : Nat} (hp : p ∈ m.nodes.members) (hread : m.nodes.read p = some rn)
    (hout : m.out = []) (hw : Waits m.nbrs rn) (nbr : RdeNbr) (ri : Rinfo) (siaquery : Bool)
    : rdeCheckQuery.found conf m p nbr ri siaquery
      = if siaquery ∧ QueryFrees conf m.nbrs nbr ri rn then none
        else some (m.put p (Eigrpd.rdeCheckQuery.found conf m.nbrs (start rn) nbr ri siaquery)) := by
  have hquiet := routeSet_quiet conf (start rn) nbr ri
  have hset := call_start hread hout (fun w => routeSet conf w nbr ri)
  have hsuccessor : (routeSet conf (start rn) nbr ri).rn.successor = rn.successor := by
    unfold routeSet
    split
    . split <;> rfl
    . split <;> rfl
  have hold : (start rn).rn.successor.fdistance = rn.successor.fdistance := rfl
  unfold found Eigrpd.rdeCheckQuery.found QueryFrees
  simp only [bind_eq_bind, hold]
  rw [hread, bind_some, hset, bind_some]
  generalize routeSet conf (start rn) nbr ri = w at hquiet hsuccessor ⊢
  have hfrees := Eigrpd.rdeCheckQuery.frees_iff conf (Waits.of_quiet hw hquiet) hquiet.freed nbr rn.successor.fdistance
  have hkept := (Eigrpd.rdeCheckQuery.switch_moves conf m.nbrs w nbr rn.successor.fdistance).freed.trans hquiet.freed
  have hsame : IsSuccessor nbr w.rn ↔ IsSuccessor nbr rn := by
    unfold IsSuccessor
    rw [hsuccessor]
  rw [hquiet.state, hquiet.rijk, hsame] at hfrees
  dsimp only [start] at hfrees
  rw [callReturning_put hp hquiet.freed, bind_some]
  simp only [put_nbrs]
  obtain ⟨⟨w', sent⟩, hr⟩ : ∃ r, Eigrpd.rdeCheckQuery.switch conf m.nbrs w nbr rn.successor.fdistance = r :=
    ⟨_, rfl⟩
  simp only [hr] at hfrees hkept ⊢
  rw [call_put hp hkept, bind_some]
  cases siaquery with
  | false => simp
  | true =>
    rcases Bool.eq_false_or_eq_true sent with hsent | hsent
    . simp [hsent, ← hfrees]
    . rcases Bool.eq_false_or_eq_true (checkLastReply conf m.nbrs w').freed with hfreed | hfreed
      . simp [hsent, hfreed, ← hfrees, call_put_freed hp hfreed]
      . simp [hsent, hfreed, ← hfrees, call_put hp hfreed]

include hd hout in
theorem rdeCheckQuery_computes (hw : ∀ rn ∈ m.rde.topology, Waits m.nbrs rn) (eigrp : Eigrp) (nbr : RdeNbr)
    (ri : Rinfo) (siaquery : Bool)
    : Computes (m.rdeCheckQuery conf eigrp nbr ri siaquery)
      (siaquery = true → ∀ rn ∈ Eigrpd.rtFind m.rde eigrp ri, ¬QueryFrees conf m.nbrs nbr ri rn)
      (Eigrpd.rdeCheckQuery conf m.rde eigrp nbr ri siaquery).1 := by
  unfold rdeCheckQuery
  cases hfind : m.rtFind eigrp ri with
  | none =>
    have hnone := rtFind_none hfind
    have hok : siaquery = true → ∀ rn ∈ Eigrpd.rtFind m.rde eigrp ri, ¬QueryFrees conf m.nbrs nbr ri rn := by
      simp [hnone]
    by_cases hdelay : ri.metric.delay = eigrpInfiniteMetric
    . simp only [hdelay, ↓reduceIte]
      apply computes_some hok
      simp only [Eigrpd.rdeCheckQuery, hnone, hdelay, ↓reduceIte]
      rfl
    simp only [hdelay, ↓reduceIte, bind_eq_bind]
    generalize hm' : { m with out := m.out ++ rdeSendReply nbr _ false } = m'
    have hread := rtNew_read m' eigrp ri
    have hmem := rtNew_mem m' eigrp ri
    rw [call, hread, map_some, bind_some, call_put hmem rfl]
    apply computes_some hok
    rw [put_rtNew_rde]
    . simp only [Eigrpd.rdeCheckQuery, hnone, hdelay, ↓reduceIte]
      rw [← hm']
      rfl
    . rw [← routeNew_key conf eigrp nbr ri]
      exact (rtSetSuccessor_quiet _ _).key
  | some p =>
    rcases rtFind_some hfind with ⟨hp, rn, hread, hsome⟩
    have hwaits := hw rn (Eigrpd.rtFind_some hsome).1
    dsimp only
    rw [rdeCheckQuery.found_eq conf hp hread hout hwaits]
    by_cases hfrees : siaquery ∧ QueryFrees conf m.nbrs nbr ri rn
    . rw [if_pos hfrees]
      refine Or.inr ⟨?_, rfl⟩
      exact fun hok => hok hfrees.1 rn hsome hfrees.2
    rw [if_neg hfrees]
    apply computes_some
    . intro hsia rn' hrn'
      rw [hsome] at hrn'
      cases hrn'
      exact fun h => hfrees ⟨hsia, h⟩
    . rw [put_rde hd hfind, Eigrpd.rdeCheckQuery, hsome]
      rfl

end

section

def Overwrites (bad : RtNode → Prop) (g : RtNode → RtNode) (m : Store) (p : Nat) (rn : RtNode)
    (r : Option Store) : Prop :=
  bad rn ∧ r = none
    ∨ ¬bad rn ∧ ∃ m', r = some m' ∧ m'.nodes = m.nodes.write p (g rn) ∧ m'.nbrs = m.nbrs
      ∧ m'.allocated = m.allocated

variable {bad : RtNode → Prop} {g : RtNode → RtNode} {step : Store → Nat → Option Store} {nbrs : List RdeNbr}
variable (hstep : ∀ m p rn, m.nbrs = nbrs → p ∈ m.nodes.members → m.nodes.read p = some rn →
  Overwrites bad g m p rn (step m p))

include hstep in
theorem foldlM_cases (hnbrs : m.nbrs = nbrs) {ps : List Nat} (hnodup : ps.Nodup)
    (hsub : ps ⊆ m.nodes.members)
    : (∃ p ∈ ps, ∃ rn ∈ m.nodes.read p, bad rn) ∧ ps.foldlM step m = none
      ∨ (∀ p ∈ ps, ∀ rn ∈ m.nodes.read p, ¬bad rn) ∧ ∃ m', ps.foldlM step m = some m'
        ∧ m'.nbrs = m.nbrs ∧ m'.allocated = m.allocated ∧ m'.nodes.members = m.nodes.members
        ∧ ∀ q, m'.nodes.read q = if q ∈ ps then (m.nodes.read q).map g else m.nodes.read q := by
  induction ps generalizing m with
  | nil =>
    apply Or.inr
    refine ⟨by simp, m, rfl, rfl, rfl, rfl, by simp⟩
  | cons p ps ih =>
    rw [nodup_cons] at hnodup
    have hp := hsub mem_cons_self
    rcases m.nodes.read_of_mem hp with ⟨rn, hread⟩
    rw [foldlM_cons]
    rcases hstep m p rn hnbrs hp hread with ⟨hbad, hnone⟩ | ⟨hgood, m', hsome, hnodes, hnbrs', hallocated⟩
    . apply Or.inl
      rw [hnone]
      exact ⟨⟨p, mem_cons_self, rn, hread, hbad⟩, rfl⟩
    have hmembers : m'.nodes.members = m.nodes.members := by
      rw [hnodes]
      rfl
    have hread' (q : Nat) : m'.nodes.read q = if p = q then some (g rn) else m.nodes.read q := by
      rw [hnodes]
      exact m.nodes.read_put hp (some (g rn)) q
    have hother (q : Nat) (hq : q ∈ ps) : m'.nodes.read q = m.nodes.read q := by
      rw [hread', if_neg]
      intro heq
      subst heq
      exact hnodup.1 hq
    have hsub' : ps ⊆ m'.nodes.members := by
      rw [hmembers]
      exact fun q hq => hsub (mem_cons_of_mem p hq)
    rw [hsome]
    rcases ih (hnbrs'.trans hnbrs) hnodup.2 hsub' with ⟨⟨q, hq, rn', hrn', hbad⟩, hnone⟩
      | ⟨hgoods, m'', hsome', hnbrs'', hallocated', hmembers', hreads⟩
    . apply Or.inl
      rw [hother q hq] at hrn'
      exact ⟨⟨q, mem_cons_of_mem p hq, rn', hrn', hbad⟩, hnone⟩
    . apply Or.inr
      refine ⟨?_, m'', hsome', hnbrs''.trans hnbrs', hallocated'.trans hallocated,
        hmembers'.trans hmembers, ?_⟩
      . rw [forall_mem_cons, hread]
        refine ⟨?_, ?_⟩
        . rintro _ ⟨⟩
          exact hgood
        intro q hq
        rw [← hother q hq]
        exact hgoods q hq
      . intro q
        rw [hreads, hread']
        by_cases hpq : p = q
        . subst hpq
          simp [hnodup.1, hread]
        . have hqp : q ≠ p := fun h => hpq h.symm
          simp [hpq, hqp]

include hstep in
theorem forEach_computes (hnbrs : m.nbrs = nbrs)
    : Computes (m.forEach step) (∀ rn ∈ m.rde.topology, ¬bad rn)
      { m.rde with topology := m.rde.topology.map g } := by
  rcases foldlM_cases hstep hnbrs m.nodes.nodup (List.Subset.refl _) with ⟨⟨p, hp, rn, hrn, hbad⟩, hnone⟩
    | ⟨hgoods, m', hsome, hnbrs', hallocated, hmembers, hreads⟩
  . refine Or.inr ⟨?_, hnone⟩
    exact fun hall => hall rn (m.nodes.mem_view hp hrn) hbad
  . refine Or.inl ⟨?_, m', hsome, ?_⟩
    . intro rn hrn
      rcases mem_filterMap.mp hrn with ⟨p, hp, hread⟩
      exact hgoods p hp rn hread
    unfold rde view
    rw [hnbrs', hallocated, hmembers, map_filterMap]
    congr 1
    apply filterMap_congr
    intro q hq
    rw [hreads, if_pos hq]

end

variable {r : Option Store} {ok : Prop} {s s' : Rde}

theorem Computes.congr {ok' : Prop} (h : Computes r ok s) (hok : ok ↔ ok') (hs : ok → s = s')
    : Computes r ok' s' := by
  rcases h with ⟨hyes, m, hr, hm⟩ | ⟨hno, hr⟩
  . exact Or.inl ⟨hok.mp hyes, m, hr, hm.trans (hs hyes)⟩
  . exact Or.inr ⟨mt hok.mpr hno, hr⟩

theorem Computes.bind {f : Store → Option Store}
    (h : Computes r ok s) (ok' : Prop) (hf : ∀ m, m.rde = s → Computes (f m) ok' s')
    : Computes (r.bind f) (ok ∧ ok') s' := by
  rcases h with ⟨hok, m, rfl, hm⟩ | ⟨hok, rfl⟩
  . rw [bind_some]
    exact (hf m hm).congr (and_iff_right hok).symm fun _ => rfl
  . exact Or.inr ⟨fun hboth => hok hboth.1, rfl⟩

theorem changeReplies_computes (m : Store) (f : RtNode → RtNode)
    : Computes (m.changeReplies f) True { m.rde with topology := m.rde.topology.map f } := by
  have hstep (m' : Store) (p : Nat) (rn : RtNode) (_ : m'.nbrs = m.nbrs) (_ : p ∈ m'.nodes.members)
      (hread : m'.nodes.read p = some rn)
      : Overwrites (fun _ => False) f m' p rn (m'.call p fun w => w.setRn (f w.rn)) := by
    refine Or.inr ⟨not_false, ?_⟩
    rw [call, hread]
    exact ⟨_, rfl, rfl, rfl, rfl⟩
  exact (forEach_computes hstep rfl).congr (by simp) fun _ => rfl

theorem rdeNbrDel_computes (m : Store) (nbr : RdeNbr) (peerterm : Bool)
    : Computes (m.rdeNbrDel nbr) True (Eigrpd.rdeNbrDel m.rde nbr peerterm).1 := by
  have hchange := changeReplies_computes m (removeReplies nbr)
  apply Computes.congr (hchange.bind True _) (by simp) fun _ => rfl
  intro m' hm'
  apply computes_some trivial
  have hnbrs : m'.nbrs = m.nbrs := congrArg Rde.nbrs hm'
  have htopology : m'.nodes.view = m.rde.topology.map (removeReplies nbr) := congrArg Rde.topology hm'
  have hallocated : m'.allocated = m.allocated := congrArg Rde.allocated hm'
  unfold rde Eigrpd.rdeNbrDel
  rw [hnbrs, htopology, hallocated]
  rfl

section

variable (conf : Conf) {m : Store}

theorem linkDownWork_freed_iff {nbrs : List RdeNbr} (hnbrs : (nbrs.map RdeNbr.ptr).Nodup)
    (hw : Waits nbrs rn) (hrefs : NodeRefs (fun _ => True) rn) (eigrp : Eigrp) (nbr : RdeNbr)
    : (linkDownWork conf nbrs eigrp nbr rn).freed = true ↔ LinkFrees nbrs eigrp nbr rn := by
  rw [linkDownWork_eq]
  unfold LinkFrees
  split
  . next heigrp =>
    rw [and_iff_right heigrp]
    cases hfind : routeFind nbr rn with
    | none =>
      rw [rdeCheckLinkDownNbr.body_none conf nbrs hfind]
      exact iff_of_false Bool.false_ne_true fun h => h.1 rfl
    | some route =>
      rw [(rdeCheckLinkDownNbr.body_some conf nbrs hfind).freed, and_iff_right (by simp)]
      exact rdeCheckLinkDownRn_freed_iff conf hnbrs hw hrefs rfl hfind (w := start rn)
  . next heigrp => exact iff_of_false Bool.false_ne_true fun h => heigrp h.1

theorem rdeCheckLinkDownNbr.step_overwrites {p : Nat} (hp : p ∈ m.nodes.members)
    (hread : m.nodes.read p = some rn) (eigrp : Eigrp) (nbr : RdeNbr)
    : Overwrites (fun rn => (linkDownWork conf m.nbrs eigrp nbr rn).freed = true)
      (fun rn => (linkDownWork conf m.nbrs eigrp nbr rn).rn) m p rn (step conf m eigrp nbr p) := by
  unfold Overwrites step
  simp only [bind_eq_bind, linkDownWork_eq]
  rw [hread, bind_some]
  split
  . unfold body
    simp only [bind_eq_bind]
    rw [hread, bind_some]
    cases hfind : routeFind nbr rn with
    | none =>
      rw [Eigrpd.rdeCheckLinkDownNbr.body_none conf m.nbrs hfind]
      refine Or.inr ⟨Bool.false_ne_true, _, rfl, ?_, rfl, rfl⟩
      exact (m.nodes.write_read hread).symm
    | some route =>
      have hcall := call_start (m := { m with out := [] }) hread rfl
        (fun w => rdeCheckLinkDownRn conf m.nbrs w nbr route)
      have hbody := (Eigrpd.rdeCheckLinkDownNbr.body_some conf m.nbrs hfind (w := start rn)).freed
      dsimp only
      rw [hcall, bind_some]
      cases hfreed : (rdeCheckLinkDownRn conf m.nbrs (start rn) nbr route).freed with
      | true =>
        apply Or.inl
        rw [call_put_freed (m := { m with out := [] }) hp hfreed]
        exact ⟨hbody.trans hfreed, rfl⟩
      | false =>
        have hlive := hbody.trans hfreed
        have hforget : Eigrpd.rdeCheckLinkDownNbr.body conf m.nbrs (start rn) nbr
            = forgetSuccessor nbr (rdeCheckLinkDownRn conf m.nbrs (start rn) nbr route) := by
          have hstart : routeFind nbr (start rn).rn = some route := hfind
          unfold Eigrpd.rdeCheckLinkDownNbr.body forgetSuccessor
          simp only [hstart, hfreed, Bool.false_eq_true, ↓reduceIte]
        apply Or.inr
        rw [call_put (m := { m with out := [] }) hp hfreed, ← hforget]
        refine ⟨by rw [hlive]; exact Bool.false_ne_true, _, rfl, ?_, rfl, rfl⟩
        dsimp only [put]
        rw [node?_of_live hlive]
        rfl
  . refine Or.inr ⟨Bool.false_ne_true, _, rfl, ?_, rfl, rfl⟩
    exact (m.nodes.write_read hread).symm

theorem rdeCheckLinkDownNbr_computes (h : RdeInv m.rde) (eigrp : Eigrp) (nbr : RdeNbr)
    : Computes (m.rdeCheckLinkDownNbr conf eigrp nbr) (∀ rn ∈ m.rde.topology, ¬LinkFrees m.nbrs eigrp nbr rn)
      (Eigrpd.rdeCheckLinkDownNbr conf m.rde eigrp nbr).1 := by
  have hstep : ∀ m' p rn, m'.nbrs = m.nbrs → p ∈ m'.nodes.members → m'.nodes.read p = some rn →
      Overwrites (fun rn => (linkDownWork conf m.nbrs eigrp nbr rn).freed = true)
        (fun rn => (linkDownWork conf m.nbrs eigrp nbr rn).rn) m' p rn
        (rdeCheckLinkDownNbr.step conf m' eigrp nbr p) := by
    intro m' p rn hnbrs hp hread
    rw [← hnbrs]
    exact rdeCheckLinkDownNbr.step_overwrites conf hp hread eigrp nbr
  have hloop := forEach_computes hstep rfl
  apply hloop.congr
  . apply forall₂_congr
    intro rn hrn
    exact not_congr (linkDownWork_freed_iff conf h.nodup (h.waits rn hrn) (h.refs rn hrn) eigrp nbr)
  intro hlive
  unfold Eigrpd.rdeCheckLinkDownNbr
  dsimp only
  rw [filterMap_map, ← filterMap_eq_map]
  congr 1
  apply filterMap_congr
  intro rn hrn
  exact (node?_of_live (Bool.eq_false_iff.mpr (hlive rn hrn))).symm

theorem rdeCheckLinkDown.go_computes (ifindex : Nat) (nbrs : List RdeNbr) (h : RdeInv m.rde)
    : Computes (go conf ifindex m nbrs) (LinkDownKeepsNodes conf ifindex m.rde nbrs)
      (Eigrpd.rdeCheckLinkDown.go conf ifindex m.rde nbrs).1 := by
  induction nbrs generalizing m with
  | nil => exact computes_some trivial rfl
  | cons nbr nbrs ih =>
    unfold go LinkDownKeepsNodes Eigrpd.rdeCheckLinkDown.go
    cases nbr.ei with
    | none => exact ih h
    | some ei =>
      dsimp only
      split
      . have hlink := rdeCheckLinkDownNbr_computes conf h ei.eigrp nbr
        apply hlink.bind
        intro m' hm'
        have hinv := rdeCheckLinkDownNbr_inv conf h ei.eigrp nbr
        rw [← hm'] at hinv ⊢
        exact ih hinv
      . exact ih h

theorem fromNbr_computes {peerid : UInt32} {handle : Eigrp → RdeNbr → Option Store} (ok : Eigrp → RdeNbr → Prop)
    {handle' : Eigrp → RdeNbr → Rde}
    (hcomputes : ∀ eigrp nbr, Computes (handle eigrp nbr) (ok eigrp nbr) (handle' eigrp nbr))
    : ∃ s', Computes (m.fromNbr peerid handle)
        (∀ nbr ∈ rdeNbrFind m.rde peerid, ∀ eigrp ∈ nbr.eigrp, ok eigrp nbr) s'
      ∧ ∀ s'', FromNbr m.rde peerid s'' handle' → s'' = s' := by
  unfold fromNbr
  cases hsender : sender m.rde peerid with
  | none =>
    refine ⟨m.rde, computes_some ?_ rfl, ?_⟩
    . intro nbr hnbr eigrp heigrp
      unfold sender at hsender
      rw [mem_def.mp hnbr, bind_some, mem_def.mp heigrp] at hsender
      contradiction
    intro s'' hfrom
    rcases sender_of_fromNbr hfrom with ⟨_, hsame⟩ | ⟨eigrp, nbr, hsome, _⟩
    . exact hsame
    . rw [hsender] at hsome
      contradiction
  | some from_ =>
    rcases from_ with ⟨eigrp, nbr⟩
    refine ⟨handle' eigrp nbr, (hcomputes eigrp nbr).congr ?_ fun _ => rfl, ?_⟩
    . rcases bind_eq_some_iff.mp hsender with ⟨nbr', hnbr, hmap⟩
      rcases map_eq_some_iff.mp hmap with ⟨eigrp', heigrp, hpair⟩
      cases hpair
      simp [hnbr, heigrp]
    intro s'' hfrom
    rcases sender_of_fromNbr hfrom with ⟨hnone, _⟩ | ⟨eigrp', nbr', hsome, hs''⟩
    . rw [hsender] at hnone
      contradiction
    rw [hsender] at hsome
    cases hsome
    exact hs''

section

variable (h : RdeInv m.rde) (hd : DistinctKeys m.rde)
include h hd

theorem handle_computes (hout : m.out = []) (event : Event)
    : ∃ s', Computes (m.handle conf event) (KeepsNodes conf m.rde event) s'
      ∧ ∀ s'', Outcome conf m.rde s'' event → s'' = s' := by
  cases event with
  | neighborUp peerid new =>
    refine ⟨rdeNbrNew conf m.rde peerid new, computes_some trivial ?_, fun _ houtcome => houtcome⟩
    unfold rdeNbrNew
    split <;> rfl
  | neighborDown peerid =>
    apply fromNbr_computes fun eigrp nbr => ∀ rn ∈ m.rde.topology, ¬LinkFrees m.nbrs eigrp nbr rn
    intro eigrp nbr
    have hlink := rdeCheckLinkDownNbr_computes conf h eigrp nbr
    apply (hlink.bind True _).congr (by simp) fun _ => rfl
    intro m' hm'
    rw [← hm']
    exact rdeNbrDel_computes m' nbr false
  | recvUpdateInit peerid => exact ⟨m.rde, computes_some trivial rfl, fun _ houtcome => houtcome⟩
  | recvUpdate peerid ri =>
    rcases fromNbr_computes (fun _ _ => True) fun eigrp nbr => rdeCheckUpdate_computes conf hd hout eigrp nbr ri
      with ⟨s', hcomputes, hunique⟩
    exact ⟨s', hcomputes.congr (by simp [KeepsNodes]) fun _ => rfl, hunique⟩
  | recvQuery peerid ri sia =>
    rcases fromNbr_computes _ fun eigrp nbr => rdeCheckQuery_computes conf hd hout h.waits eigrp nbr ri sia
      with ⟨s', hcomputes, hunique⟩
    refine ⟨s', hcomputes.congr ?_ fun _ => rfl, hunique⟩
    cases sia with
    | true => simp [KeepsNodes, rde]
    | false => simp [KeepsNodes]
  | recvReply peerid ri sia =>
    rcases fromNbr_computes (fun _ _ => True) fun eigrp nbr =>
        rdeCheckReply_computes conf hd hout eigrp nbr ri sia
      with ⟨s', hcomputes, hunique⟩
    exact ⟨s', hcomputes.congr (by simp [KeepsNodes]) fun _ => rfl, hunique⟩
  | ifDown ifindex =>
    exact ⟨_, rdeCheckLinkDown.go_computes conf ifindex m.nbrs h, fun _ houtcome => houtcome⟩
  | redistribute eigrp ri =>
    exact ⟨_, rdeCheckUpdate_computes conf hd hout eigrp (rnbrRedist eigrp) ri, fun _ houtcome => houtcome⟩
  | activeTimer rn reply =>
    exact ⟨_, rdeNbrDel_computes m reply.nbr true, fun _ houtcome => houtcome.2.2⟩
  | siaTimer rn reply =>
    unfold handle Outcome
    dsimp only
    by_cases hdelete : reply.siaquerySent > 0 ∧ ¬reply.siareplyRecv
    . have hsia := replySiaTimer_eq m.rde rn reply
      rw [if_pos hdelete] at hsia ⊢
      rw [hsia]
      exact ⟨_, rdeNbrDel_computes m reply.nbr true, fun _ houtcome => houtcome.2.2⟩
    . rw [if_neg hdelete, replySiaTimer_eq_siaReply m.rde rn reply hdelete]
      exact ⟨_, changeReplies_computes m _, fun _ houtcome => houtcome.2.2⟩

theorem step_rde {m' : Store} {event : Event} (hstep : m.step conf event = some m')
    : rdeStep conf m.rde event = some m'.rde := by
  unfold step at hstep
  split at hstep
  . contradiction
  rename_i s' hs'
  rcases handle_computes conf (m := { m with out := [] }) h hd rfl event with ⟨s'', hcomputes, hunique⟩
  have hsame := hunique s' (rdeStep_outcome conf hs')
  rcases hcomputes with ⟨_, m'', hsome, hm''⟩ | ⟨_, hnone⟩
  . rw [hstep] at hsome
    cases hsome
    rw [hs', hsame, ← hm'']
  . rw [hstep] at hnone
    contradiction

theorem run_rde {events : List Event} {m' : Store} (hrun : run conf m events = some m')
    : rdeRun conf m.rde events = some m'.rde ∧ RdeInv m'.rde ∧ DistinctKeys m'.rde := by
  induction events generalizing m with
  | nil =>
    cases hrun
    exact ⟨rfl, h, hd⟩
  | cons event events ih =>
    rcases Machine.run_cons hrun with ⟨m'', hm'', hrun⟩
    have hstep := step_rde conf h hd hm''
    have ⟨hrest, hinv⟩ := ih (rdeStep_inv conf h hstep) (rdeStep_find conf hd hstep).1 hrun
    refine ⟨?_, hinv⟩
    rw [rdeRun, Machine.run, hstep]
    exact hrest

end

end

end Store

end Eigrpd
