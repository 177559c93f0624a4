import Mathlib
import OpenBSDCiv.Eigrpd.Passive
import OpenBSDCiv.Eigrpd.Lemmas.Lookup
import OpenBSDCiv.Eigrpd.Lemmas.Progress

namespace Eigrpd

open UInt32 (le_refl le_trans)

open List Option Work

section

variable (conf : Conf) (nbrs : List RdeNbr)

variable {successor route : EigrpRoute} {rn : RtNode} {w : Work} {nbr : RdeNbr} {eigrp : Eigrp}
variable {keeps keeps' : Prop} {node : Option RtNode}

theorem rtGetSuccessorFc.best_spec {fdistance : UInt32} {externalOnly : Bool} {distance : UInt32}
    {successor : Option EigrpRoute} {routes : List EigrpRoute}
    (h : best fdistance externalOnly distance successor routes = some route)
    (hsuccessor : ∀ r ∈ successor, r.distance = distance)
    : (route ∈ successor
        ∨ route ∈ routes ∧ ¬(route.type = .external ∧ ¬externalOnly) ∧ route.rdistance < fdistance)
      ∧ route.distance ≤ distance
      ∧ ∀ r ∈ routes, ¬(r.type = .external ∧ ¬externalOnly) → r.rdistance < fdistance → route.distance ≤ r.distance := by
  induction routes generalizing distance successor with
  | nil =>
    refine ⟨Or.inl h, ?_, by simp⟩
    rw [hsuccessor route h]
    exact le_refl _
  | cons r routes ih =>
    unfold best at h
    split at h
    . next hskip =>
      obtain ⟨hmem, hle, hmin⟩ := ih h hsuccessor
      refine ⟨hmem.imp_right fun hr => ⟨mem_cons_of_mem r hr.1, hr.2⟩, hle, ?_⟩
      rw [forall_mem_cons]
      exact ⟨fun hnot => absurd hskip hnot, hmin⟩
    rename_i hskip
    split at h
    . next hbetter =>
      obtain ⟨hmem, hle, hmin⟩ := ih h (by rintro _ ⟨⟩; rfl)
      refine ⟨?_, le_trans hle (UInt32.le_of_lt hbetter.2), ?_⟩
      . rcases hmem with hr | hr
        . cases hr
          exact Or.inr ⟨mem_cons_self, hskip, hbetter.1⟩
        . exact Or.inr ⟨mem_cons_of_mem r hr.1, hr.2⟩
      . rw [forall_mem_cons]
        exact ⟨fun _ _ => hle, hmin⟩
    rename_i hworse
    obtain ⟨hmem, hle, hmin⟩ := ih h hsuccessor
    refine ⟨hmem.imp_right fun hr => ⟨mem_cons_of_mem r hr.1, hr.2⟩, hle, ?_⟩
    rw [forall_mem_cons]
    refine ⟨?_, hmin⟩
    intro _ hfeasible
    apply le_trans hle
    exact UInt32.not_lt.mp fun hlt => hworse ⟨hfeasible, hlt⟩

theorem rtGetSuccessorFc_le_iff (h : rtGetSuccessorFc rn = some route)
    : route.distance ≤ rn.successor.fdistance ↔ KeepsFdistance rn := by
  unfold rtGetSuccessorFc at h
  unfold KeepsFdistance
  cases hlocal : localRoute rn with
  | some route' =>
    unfold localRoute at hlocal
    rw [hlocal] at h
    cases h
    exact Iff.rfl
  | none =>
    unfold localRoute at hlocal
    rw [hlocal] at h
    have hcandidate (r : EigrpRoute)
        : (¬(r.type = .external ∧ ¬(rn.routes.all fun route => route.type ≠ .internal))
            ∧ r.rdistance < rn.successor.fdistance) ↔ Feasible rn r := by
      unfold Feasible
      cases r.type <;> simp
    obtain ⟨hmem, _, hmin⟩ := rtGetSuccessorFc.best_spec h (by simp)
    constructor
    . intro hle
      rcases hmem with hmem | ⟨hmem, hfeasible⟩
      . contradiction
      . exact ⟨route, hmem, (hcandidate route).mp hfeasible, hle⟩
    rintro ⟨r, hr, hfeasible, hle⟩
    have hr' := (hcandidate r).mpr hfeasible
    exact le_trans (hmin r hr hr'.1 hr'.2) hle

theorem passive_fdistance (w : Work) (successor : EigrpRoute) (oldFdistance : UInt32)
    : (sendUpdateIfChanged conf (passiveSuccessor conf w successor) oldFdistance).rn.successor.fdistance
      = successor.distance := by
  rw [(sendUpdateIfChanged_rn conf _ _).1, passiveSuccessor, rtUpdateFib_successor]
  rfl

def Settles (w : Work) (successor : EigrpRoute) : Prop :=
  w.freed = false ∧ w.rn.state = .passive ∧ w.rn.successor.fdistance = successor.distance

section

variable (hfreed : w.freed = false) (hpassive : w.rn.state = .passive)
include hpassive

theorem checkLastReply_passive : checkLastReply conf nbrs w = w := by
  unfold checkLastReply
  rw [if_neg (fun h => h.1 hpassive)]

include hfreed

theorem settles_of_passive (successor : EigrpRoute) (oldFdistance : UInt32)
    : Settles (sendUpdateIfChanged conf (passiveSuccessor conf w successor) oldFdistance) successor := by
  have hquiet := passive_quiet conf successor oldFdistance (w := w)
  exact ⟨hquiet.freed.trans hfreed, hquiet.state.trans hpassive, passive_fdistance conf w successor oldFdistance⟩

theorem rdeCheckUpdate.switch_settles (hfc : rtGetSuccessorFc w.rn = some successor) (oldFdistance : UInt32)
    : Settles (switch conf nbrs w oldFdistance) successor := by
  have hsettles := settles_of_passive conf hfreed hpassive successor oldFdistance
  unfold switch
  rw [if_pos hpassive, hfc]
  rw [checkLastReply_passive conf nbrs hsettles.2.1]
  exact hsettles

theorem rdeCheckQuery.found_settles {ri : Rinfo}
    (hfc : rtGetSuccessorFc (routeSet conf w nbr ri).rn = some successor) (siaquery : Bool)
    : Settles (found conf nbrs w nbr ri siaquery) successor := by
  have hquiet := routeSet_quiet conf w nbr ri
  have hpassive' := hquiet.state.trans hpassive
  have hsettles := settles_of_passive conf (hquiet.freed.trans hfreed) hpassive' successor w.rn.successor.fdistance
  have hswitch : (switch conf nbrs (routeSet conf w nbr ri) nbr w.rn.successor.fdistance).1.rn
        = (passiveSuccessor conf (routeSet conf w nbr ri) successor).rn
      ∧ (switch conf nbrs (routeSet conf w nbr ri) nbr w.rn.successor.fdistance).1.freed
        = (passiveSuccessor conf (routeSet conf w nbr ri) successor).freed := by
    unfold switch
    rw [hpassive', hfc]
    exact sendUpdateIfChanged_rn conf _ _
  have hsame := sendUpdateIfChanged_rn conf (passiveSuccessor conf (routeSet conf w nbr ri) successor)
    w.rn.successor.fdistance
  unfold Settles at hsettles ⊢
  rw [hsame.1, hsame.2] at hsettles
  rw [found_eq_finish, (finish_rn _ _ _ _).1, (finish_rn _ _ _ _).2, checkLastReply_passive, hswitch.1, hswitch.2]
  . exact hsettles
  . rw [hswitch.1]
    exact hsettles.2.1

theorem rdeCheckLinkDownRn_settles {p q : RdeNbr → Prop} (hrefs : Refs eigrp p q w.rn)
    (hfind : routeFind nbr w.rn = some route)
    (hfc : rtGetSuccessorFc (withoutRoutesOf nbr w.rn) = some successor)
    : Settles (rdeCheckLinkDownRn conf nbrs w nbr route) successor := by
  have hdel := routeDel_rn conf hrefs hfind
  have hquiet := routeDel_quiet conf w route
  have hsettles := settles_of_passive conf (hquiet.freed.trans hfreed) (hquiet.state.trans hpassive) successor
    w.rn.successor.fdistance
  rw [← hdel] at hfc
  unfold rdeCheckLinkDownRn rdeCheckLinkDownRn.switch rdeCheckLinkDownRn.reply
  dsimp only
  rw [hquiet.state, hpassive, hfc]
  rw [if_neg (not_not.mpr hsettles.2.1)]
  exact hsettles

end

def RemainsPassive (rn : RtNode) (keeps : Prop) (node : Option RtNode) : Prop :=
  ∃ rn', node = some rn' ∧ rn'.state = .passive
    ∧ (keeps → rn'.successor.fdistance ≤ rn.successor.fdistance)

theorem remainsPassive_refl (h : rn.state = .passive) (keeps : Prop) : RemainsPassive rn keeps (some rn) :=
  ⟨rn, rfl, h, fun _ => le_refl _⟩

theorem Settles.remainsPassive (h : Settles w successor) {rn₁ : RtNode} (hfc : rtGetSuccessorFc rn₁ = some successor)
    (hfdistance : rn₁.successor.fdistance = rn.successor.fdistance) (hkeeps : keeps → KeepsFdistance rn₁)
    : RemainsPassive rn keeps w.node? := by
  refine ⟨w.rn, by simp [node?, h.1], h.2.1, ?_⟩
  intro hk
  rw [h.2.2, ← hfdistance]
  exact (rtGetSuccessorFc_le_iff hfc).mpr (hkeeps hk)

theorem routeSet_fdistance (w : Work) (nbr : RdeNbr) (ri : Rinfo)
    : (routeSet conf w nbr ri).rn.successor.fdistance = w.rn.successor.fdistance := by
  unfold routeSet
  split
  . split <;> rfl
  . split <;> rfl

theorem linkDownNode_passive (hrefs : NodeRefs (fun _ => True) rn) (hpassive : rn.state = .passive)
    (hfc : OnLinkLoss (fun rn => rtGetSuccessorFc rn ≠ none) eigrp nbr rn)
    : RemainsPassive rn (OnLinkLoss KeepsFdistance eigrp nbr rn) (linkDownNode conf nbrs eigrp nbr (some rn)).1 := by
  unfold linkDownNode result
  dsimp only
  rw [linkDownWork_eq]
  split
  . next heigrp =>
    cases hfind : routeFind nbr rn with
    | none =>
      rw [rdeCheckLinkDownNbr.body_none conf nbrs hfind]
      exact remainsPassive_refl hpassive _
    | some route =>
      have hroute : rn.eigrp = eigrp ∧ routeFind nbr rn ≠ none := ⟨heigrp, by simp [hfind]⟩
      rcases ne_none_iff_exists'.mp (hfc hroute) with ⟨successor, hsuccessor⟩
      have hsettles := rdeCheckLinkDownRn_settles conf nbrs rfl hpassive hrefs hfind hsuccessor (w := start rn)
      have hquiet := rdeCheckLinkDownNbr.body_some conf nbrs hfind (w := start rn)
      have hbody : Settles (rdeCheckLinkDownNbr.body conf nbrs (start rn) nbr) successor := by
        refine ⟨hquiet.freed.trans hsettles.1, hquiet.state.trans hsettles.2.1, ?_⟩
        have hstart : routeFind nbr (start rn).rn = some route := hfind
        unfold rdeCheckLinkDownNbr.body
        simp only [hstart, hsettles.1, Bool.false_eq_true, ↓reduceIte]
        split
        . exact hsettles.2.2
        . exact hsettles.2.2
      exact hbody.remainsPassive hsuccessor rfl fun hkeeps => hkeeps hroute
  . exact remainsPassive_refl hpassive _

theorem RemainsPassive.trans {node' : Option RtNode}
    (h : RemainsPassive rn keeps node) (h' : ∀ rn' ∈ node, rn'.state = .passive → RemainsPassive rn' keeps' node')
    : RemainsPassive rn (keeps ∧ keeps') node' := by
  rcases h with ⟨rn', hnode, hpassive, hle⟩
  rcases h' rn' hnode hpassive with ⟨rn'', hnode', hpassive', hle'⟩
  exact ⟨rn'', hnode', hpassive', fun hkeeps => le_trans (hle' hkeeps.2) (hle hkeeps.1)⟩

theorem RemainsPassive.mono (h : RemainsPassive rn keeps node) (hkeeps : keeps' → keeps)
    : RemainsPassive rn keeps' node := by
  rcases h with ⟨rn', hnode, hpassive, hle⟩
  exact ⟨rn', hnode, hpassive, fun hk => hle (hkeeps hk)⟩

theorem linkDownNode_refs {rn' : RtNode} (hrefs : NodeRefs (fun _ => True) rn)
    (hnode : (linkDownNode conf nbrs eigrp nbr (some rn)).1 = some rn')
    : NodeRefs (fun _ => True) rn' := by
  have hwork : NodeRefs (fun _ => True) (linkDownWork conf nbrs eigrp nbr rn).rn := by
    rw [linkDownWork_eq]
    split
    . apply nodeRefs_of_refs
      exact rdeCheckLinkDownNbr.body_refs conf nbrs hrefs (fun _ hn => hn) nbr (w := start rn)
    . exact hrefs
  unfold linkDownNode result node? at hnode
  dsimp only at hnode
  split at hnode
  . contradiction
  . cases hnode
    exact hwork

theorem ifDownNode_passive (ifindex : Nat) (rest : List RdeNbr)
    (hrefs : NodeRefs (fun _ => True) rn) (hpassive : rn.state = .passive)
    : EachLinkLoss conf (fun rn => rtGetSuccessorFc rn ≠ none) nbrs ifindex (some rn) rest →
      RemainsPassive rn (EachLinkLoss conf KeepsFdistance nbrs ifindex (some rn) rest)
      (ifDownNode conf nbrs ifindex (some rn) rest).1 := by
  induction rest generalizing rn with
  | nil => exact fun _ => remainsPassive_refl hpassive _
  | cons nbr rest ih =>
    unfold EachLinkLoss ifDownNode
    cases nbr.ei with
    | none => exact ih hrefs hpassive
    | some ei =>
      dsimp only
      split
      . intro hfc
        have hlink := linkDownNode_passive conf nbrs hrefs hpassive (hfc.1 rn rfl)
        have hrest : ∀ rn' ∈ (linkDownNode conf nbrs ei.eigrp nbr (some rn)).1, rn'.state = .passive →
            RemainsPassive rn'
              (EachLinkLoss conf KeepsFdistance nbrs ifindex (linkDownNode conf nbrs ei.eigrp nbr (some rn)).1 rest)
              (ifDownNode conf nbrs ifindex (linkDownNode conf nbrs ei.eigrp nbr (some rn)).1 rest).1 := by
          intro rn' hrn' hpassive'
          have hrefs' := linkDownNode_refs conf nbrs hrefs hrn'
          have hfc' := hfc.2
          rw [mem_def.mp hrn'] at hfc' ⊢
          exact ih hrefs' hpassive' hfc'
        exact (hlink.trans hrest).mono fun hkeeps => ⟨hkeeps.1 rn rfl, hkeeps.2⟩
      . exact ih hrefs hpassive

theorem aboutPrefix_passive {s : Rde} {k : RtKey} (hfind : s.find k = some rn) (hpassive : rn.state = .passive)
    {ri : Rinfo} {sender : Option (Eigrp × RdeNbr)} {handle : Eigrp → RdeNbr → Option RtNode → Option RtNode × List Out}
    (h : ∀ from_ ∈ sender, ri.key from_.1 = k → RemainsPassive rn keeps (handle from_.1 from_.2 (some rn)).1)
    : RemainsPassive rn keeps (aboutPrefix s k ri sender handle).1 := by
  unfold aboutPrefix
  rw [hfind]
  cases sender with
  | none => exact remainsPassive_refl hpassive keeps
  | some from_ =>
    dsimp only
    split
    . next hk => exact h from_ rfl hk
    . exact remainsPassive_refl hpassive keeps

theorem nodeStep_passive {s : Rde} (h : RdeInv s) {k : RtKey} (hfind : s.find k = some rn)
    (hpassive : rn.state = .passive) {event : Event}
    (hfc : OnRouteChange conf (fun rn => rtGetSuccessorFc rn ≠ none) s k event)
    : RemainsPassive rn (OnRouteChange conf KeepsFdistance s k event) (nodeStep conf s k event).1 := by
  have hrefs := h.refs rn (find_some hfind).1
  have hupdate (eigrp : Eigrp) (nbr : RdeNbr) (ri : Rinfo)
      (hfc : rtGetSuccessorFc (routeSet conf (start rn) nbr ri).rn ≠ none)
      : RemainsPassive rn (KeepsFdistance (routeSet conf (start rn) nbr ri).rn)
        (updateNode conf s.nbrs eigrp nbr ri (some rn)).1 := by
    rcases ne_none_iff_exists'.mp hfc with ⟨successor, hsuccessor⟩
    have hquiet := routeSet_quiet conf (start rn) nbr ri
    have hsettles := rdeCheckUpdate.switch_settles conf s.nbrs hquiet.freed (hquiet.state.trans hpassive) hsuccessor
      rn.successor.fdistance
    exact hsettles.remainsPassive hsuccessor (routeSet_fdistance conf (start rn) nbr ri) id
  cases event with
  | neighborUp peerid new =>
    rw [nodeStep, hfind]
    exact remainsPassive_refl hpassive _
  | neighborDown peerid =>
    unfold nodeStep
    unfold OnRouteChange at hfc ⊢
    dsimp only at hfc ⊢
    cases hsender : sender s peerid with
    | none =>
      rw [hfind]
      exact remainsPassive_refl hpassive _
    | some from_ =>
      have hlink := linkDownNode_passive conf s.nbrs hrefs hpassive (hfc from_ hsender rn hfind)
      rcases hlink with ⟨rn', hnode, hpassive', hle⟩
      dsimp only
      rw [hfind, hnode]
      exact ⟨removeReplies from_.2 rn', rfl, hpassive', fun hkeeps => hle (hkeeps from_ rfl rn rfl)⟩
  | recvUpdateInit peerid =>
    rw [nodeStep, hfind]
    exact remainsPassive_refl hpassive _
  | recvUpdate peerid ri =>
    apply aboutPrefix_passive hfind hpassive
    intro from_ hsender hk
    apply (hupdate from_.1 from_.2 ri (hfc from_ hsender hk rn hfind)).mono
    exact fun hkeeps => hkeeps from_ hsender hk rn hfind
  | recvQuery peerid ri sia =>
    apply aboutPrefix_passive hfind hpassive
    intro from_ hsender hk
    rcases ne_none_iff_exists'.mp (hfc from_ hsender hk rn hfind) with ⟨successor, hsuccessor⟩
    have hsettles := rdeCheckQuery.found_settles conf s.nbrs rfl hpassive hsuccessor sia
    apply hsettles.remainsPassive hsuccessor (routeSet_fdistance conf (start rn) from_.2 ri)
    exact fun hkeeps => hkeeps from_ hsender hk rn hfind
  | recvReply peerid ri sia =>
    have hreply (nbr : RdeNbr) : (replyNode conf s.nbrs nbr ri sia (some rn)).1 = some rn := by
      have hpassive' : (start rn).rn.state = .passive := hpassive
      unfold replyNode rdeCheckReply.found
      dsimp only
      rw [if_pos hpassive']
      rfl
    apply aboutPrefix_passive hfind hpassive
    intro from_ _ _
    rw [hreply]
    exact remainsPassive_refl hpassive _
  | ifDown ifindex =>
    unfold nodeStep
    unfold OnRouteChange at hfc ⊢
    dsimp only at hfc ⊢
    rw [hfind] at hfc ⊢
    exact ifDownNode_passive conf s.nbrs ifindex s.nbrs hrefs hpassive hfc
  | redistribute eigrp ri =>
    apply aboutPrefix_passive hfind hpassive
    rintro _ ⟨⟩ hk
    apply (hupdate eigrp (rnbrRedist eigrp) ri (hfc hk rn hfind)).mono
    exact fun hkeeps => hkeeps hk rn hfind
  | activeTimer rn' reply =>
    rw [nodeStep, hfind]
    exact ⟨removeReplies reply.nbr rn, rfl, hpassive, fun _ => le_refl _⟩
  | siaTimer rn' reply =>
    rw [nodeStep, hfind]
    split
    . exact ⟨removeReplies reply.nbr rn, rfl, hpassive, fun _ => le_refl _⟩
    rcases setReply_eq rn' rn reply (siaReply reply) (by unfold siaReply; split <;> rfl) with ⟨rijk, hset, _⟩
    refine ⟨_, rfl, ?_, fun _ => ?_⟩
    . rw [hset]
      exact hpassive
    . rw [hset]
      exact le_refl _

end

def sampleKey : RtKey :=
  (sampleRinfo 0).key sampleEigrp

def sampleRoute : List Event :=
  [.neighborUp 10 (sampleNbr 1 1), .recvUpdate 10 (sampleRinfo 2560)]

end Eigrpd
