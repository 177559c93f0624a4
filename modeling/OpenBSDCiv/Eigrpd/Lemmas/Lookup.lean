import OpenBSDCiv.Eigrpd.NodeStep
import OpenBSDCiv.Eigrpd.Lemmas.Inv
import OpenBSDCiv.Eigrpd.Lemmas.Topology

namespace Eigrpd

open List

open Keyed

theorem eigrpAddrcmp_eq_zero (eigrp : Eigrp) (a b : EigrpdAddr) (prefixlen : UInt8)
    : eigrpAddrcmp eigrp.af a b = 0 ↔ RtKey.of eigrp a prefixlen = RtKey.of eigrp b prefixlen := by
  unfold eigrpAddrcmp RtKey.of
  cases eigrp.af with
  | inet =>
    dsimp only
    split
    . next heq => simp [heq]
    . next hne => split <;> simp [hne]
  | inet6 =>
    dsimp only
    split
    . next heq => simp [heq]
    . next hne => simp [hne]

theorem matches_iff (rn : RtNode) (eigrp : Eigrp) (ri : Rinfo)
    : rn.matches eigrp ri = true ↔ rn.key = ri.key eigrp := by
  unfold RtNode.matches RtNode.key Rinfo.key
  rw [decide_eq_true_iff, eigrpAddrcmp_eq_zero eigrp _ _ ri.prefixlen]
  constructor
  . rintro ⟨rfl, haddr, hlen⟩
    rw [hlen, haddr]
  intro h
  have heigrp : rn.eigrp = eigrp := congrArg RtKey.eigrp h
  have hlen : rn.prefixlen = ri.prefixlen := congrArg RtKey.prefixlen h
  subst heigrp
  rw [hlen] at h
  exact ⟨rfl, h, hlen⟩

theorem rtFind_eq (s : Rde) (eigrp : Eigrp) (ri : Rinfo) : rtFind s eigrp ri = s.find (ri.key eigrp) := by
  unfold rtFind Rde.find
  congr 1
  funext rn
  rw [Bool.eq_iff_iff, matches_iff, decide_eq_true_iff]

variable {rn : RtNode}

theorem find_some {s : Rde} {k : RtKey} (h : s.find k = some rn)
    : rn ∈ s.topology ∧ rn.key = k :=
  of_find?_eq_some h

/-- For `AF_INET` a search in the tree of the instance finds the same prefixes, however the tree came about. -/
theorem rtFind_eq_tree (s : Rde) {eigrp : Eigrp} (hinet : eigrp.af = .inet) (ops : List Topology.Op)
    (hnodes : ∀ k : RtKey, k.eigrp = eigrp → ((∃ rn ∈ s.topology, rn.key = k)
      ↔ ∃ rn ∈ (Topology.run .inet ops).live, RtKey.of eigrp rn.prefix_ rn.prefixlen = k)) (ri : Rinfo)
    : (rtFind s eigrp ri).map RtNode.key
      = (Topology.rtFind .inet (Topology.run .inet ops).topology ⟨ri.prefix_, ri.prefixlen⟩).map fun rn =>
          RtKey.of eigrp rn.prefix_ rn.prefixlen := by
  have hmap := Topology.isMap_of_inv Topology.rtCompare_inet_isOrder (Topology.run_inv Topology.rtCompare_inet_isOrder ops)
  have hkey (rn : Topology.RtNode) : rn.key .inet = Topology.Rinfo.key .inet ⟨ri.prefix_, ri.prefixlen⟩
      ↔ RtKey.of eigrp rn.prefix_ rn.prefixlen = ri.key eigrp := by
    simp [Topology.RtNode.key, Topology.Rinfo.key, Topology.addrKey, Rinfo.key, RtKey.of, hinet]
  have hnodes := hnodes (ri.key eigrp) rfl
  rw [rtFind_eq]
  cases htree : Topology.rtFind .inet (Topology.run .inet ops).topology ⟨ri.prefix_, ri.prefixlen⟩ with
  | none =>
    cases hlist : s.find (ri.key eigrp) with
    | none => rfl
    | some rn =>
      rcases hnodes.mp ⟨rn, find_some hlist⟩ with ⟨rn', hmem, hrn'⟩
      rw [(hmap.rtFind_iff _ rn').mpr ⟨hmem, (hkey rn').mpr hrn'⟩] at htree
      contradiction
  | some rn' =>
    rcases (hmap.rtFind_iff _ rn').mp htree with ⟨hmem, hrn'⟩
    rcases hnodes.mpr ⟨rn', hmem, (hkey rn').mp hrn'⟩ with ⟨rn, hrn, hk⟩
    cases hlist : s.find (ri.key eigrp) with
    | none => exact absurd hk (by simpa using find?_eq_none.mp hlist rn hrn)
    | some found => rw [Option.map_some, Option.map_some, (find_some hlist).2, (hkey rn').mp hrn']

theorem node?_key {w : Work} {k : RtKey} (h : w.rn.key = k) : ∀ rn ∈ w.node?, rn.key = k := by
  intro rn hrn
  unfold Work.node? at hrn
  split at hrn
  . contradiction
  . cases hrn
    exact h

def DistinctKeys (s : Rde) : Prop :=
  (s.topology.map RtNode.key).Nodup

section

variable {s : Rde} (h : DistinctKeys s)

include h in
theorem find_of_mem (hrn : rn ∈ s.topology) : s.find rn.key = some rn := by
  cases hfind : s.find rn.key with
  | none => exact absurd rfl (find?_eq_none_iff.mp hfind rn hrn)
  | some rn' =>
    have ⟨hmem, hkey⟩ := find_some hfind
    rw [inj_on_of_nodup_map h hmem hrn hkey]

section

variable {f : RtNode → Option RtNode} (hf : ∀ rn, ∀ rn' ∈ f rn, rn'.key = rn.key)

include h hf in
theorem filterMap_distinct : DistinctKeys { s with topology := s.topology.filterMap f } :=
  h.sublist (map_filterMap_sublist hf)

include h hf in
theorem find_filterMap (k : RtKey)
    : Rde.find { s with topology := s.topology.filterMap f } k = (s.find k).bind f :=
  find?_filterMap hf h k

end

section

variable {f : RtNode → RtNode} (hf : ∀ rn, (f rn).key = rn.key)

include h hf in
theorem map_distinct : DistinctKeys { s with topology := s.topology.map f } := by
  have hmap : s.topology.map (RtNode.key ∘ f) = s.topology.map RtNode.key :=
    map_congr_left fun rn _ => hf rn
  unfold DistinctKeys
  rw [map_map, hmap]
  exact h

include h hf in
theorem find_map (k : RtKey) : Rde.find { s with topology := s.topology.map f } k = (s.find k).map f := by
  have hfilter := find_filterMap h (f := some ∘ f) (by rintro rn _ ⟨⟩; exact hf rn) k
  rw [filterMap_eq_map] at hfilter
  rw [hfilter]
  cases s.find k <;> rfl

end

section

variable {eigrp : Eigrp} {ri : Rinfo} {w : Work} (hw : w.rn.key = ri.key eigrp)

include hw in
theorem commit_key (rn : RtNode)
    : ∀ rn' ∈ (if rn.matches eigrp ri then w.node? else some rn), rn'.key = rn.key := by
  split
  . next hmatches =>
    rw [matches_iff] at hmatches
    rw [hmatches]
    exact node?_key hw
  . rintro _ ⟨⟩
    rfl

include h hw in
theorem commit_distinct : DistinctKeys (s.commit eigrp ri w) :=
  filterMap_distinct h (commit_key hw)

include h hw in
theorem find_commit (hfind : rtFind s eigrp ri = some rn) (k : RtKey)
    : (s.commit eigrp ri w).find k = if ri.key eigrp = k then w.node? else s.find k := by
  rw [Rde.commit, find_filterMap h (commit_key hw)]
  rw [rtFind_eq] at hfind
  split
  . next hk =>
    subst hk
    rw [hfind, Option.bind_some, if_pos ((matches_iff _ _ _).mpr (find_some hfind).2)]
  rename_i hk
  cases hother : s.find k with
  | none => rfl
  | some rn' =>
    have hkey := (find_some hother).2
    have hne : ¬rn'.matches eigrp ri := by
      rw [matches_iff, hkey]
      exact fun heq => hk heq.symm
    rw [Option.bind_some, if_neg hne]

include h hw in
theorem add_distinct (hfind : rtFind s eigrp ri = none) : DistinctKeys (s.add w) := by
  rw [rtFind_eq] at hfind
  unfold Rde.add
  split
  . exact h
  rename_i rn hnode
  have hkey := node?_key hw rn hnode
  unfold DistinctKeys
  rw [insertNode, ((insertBefore_perm _ _ _).map _).nodup_iff, map_cons, nodup_cons]
  refine ⟨?_, h⟩
  intro hmem
  rcases mem_map.mp hmem with ⟨rn', hrn', heq⟩
  exact find?_eq_none_iff.mp hfind rn' hrn' (heq.trans hkey)

include hw in
theorem find_add (hfind : rtFind s eigrp ri = none) (k : RtKey)
    : (s.add w).find k = if ri.key eigrp = k then w.node? else s.find k := by
  rw [rtFind_eq] at hfind
  unfold Rde.add
  cases hnode : w.node? with
  | none =>
    dsimp only
    split
    . next hk =>
      subst hk
      exact hfind
    . rfl
  | some rn =>
    have hkey := node?_key hw rn hnode
    unfold Rde.find insertNode
    rw [find?_insertBefore, hkey]
    rw [hkey]
    exact find?_eq_none_iff.mp hfind

end

end

section

variable (conf : Conf) (nbrs : List RdeNbr)

theorem rdeCheckUpdate.switch_key {w : Work} (oldFdistance : UInt32)
    : (switch conf nbrs w oldFdistance).rn.key = w.rn.key :=
  (switch_evolves conf nbrs w oldFdistance).key

theorem routeNew_key (eigrp : Eigrp) (nbr : RdeNbr) (ri : Rinfo)
    : (routeNew conf (Work.start (rtNew eigrp ri)) nbr ri).rn.key = ri.key eigrp :=
  (routeNew_quiet conf (Work.start (rtNew eigrp ri)) nbr ri).key

theorem rdeCheckQuery.found_key (w : Work) (nbr : RdeNbr) (ri : Rinfo) (siaquery : Bool)
    : (found conf nbrs w nbr ri siaquery).rn.key = w.rn.key := by
  have hset := (routeSet_quiet conf w nbr ri).key
  have hswitch := (switch_moves conf nbrs (routeSet conf w nbr ri) nbr w.rn.successor.fdistance).key
  have hlast := (checkLastReply_evolves conf nbrs
    (switch conf nbrs (routeSet conf w nbr ri) nbr w.rn.successor.fdistance).1).key
  unfold found
  dsimp only
  split
  . split
    . exact hlast.trans (hswitch.trans hset)
    . exact hlast.trans (hswitch.trans hset)
  . exact hlast.trans (hswitch.trans hset)

theorem rdeCheckReply.found_key (w : Work) (nbr : RdeNbr) (ri : Rinfo) (siareply : Bool)
    : (found conf nbrs w nbr ri siareply).rn.key = w.rn.key := by
  have hset := (routeSet_quiet conf w nbr ri).key
  unfold found
  dsimp only
  split
  . rfl
  split
  . rfl
  split
  . rfl
  split
  . exact (rdeLastReply_evolves conf nbrs _).key.trans hset
  . exact hset

theorem linkDownWork_key (eigrp : Eigrp) (nbr : RdeNbr) (rn : RtNode)
    : (linkDownWork conf nbrs eigrp nbr rn).rn.key = rn.key := by
  rw [linkDownWork_eq]
  split
  . cases hfind : routeFind nbr rn with
    | none => rw [rdeCheckLinkDownNbr.body_none conf nbrs hfind]; rfl
    | some route =>
      have hswitch := (rdeCheckLinkDownRn.switch_moves conf nbrs (routeDel conf (Work.start rn) route)
        (rn.successor.nbr.any fun n => n.ptr = nbr.ptr) rn.successor.fdistance).key
      rw [(rdeCheckLinkDownNbr.body_some conf nbrs hfind).key]
      unfold rdeCheckLinkDownRn rdeCheckLinkDownRn.reply
      dsimp only
      split
      . split
        . exact hswitch
        . exact (rdeCheckReply.found_key conf nbrs _ nbr _ false).trans hswitch
      . exact hswitch
  . rfl

theorem removeReplies_key (nbr : RdeNbr) (rn : RtNode) : (removeReplies nbr rn).key = rn.key :=
  rfl

theorem setReply_key (rn : RtNode) (reply reply' : ReplyNode) (rn' : RtNode)
    : (setReply rn reply reply' rn').key = rn'.key := by
  unfold setReply
  split
  . next heq => rw [heq]; rfl
  . rfl

variable {nbrs}

section

variable {s : Rde} (h : DistinctKeys s)

/-- What a handler does is `node` at the prefix `k`, and nothing elsewhere. -/
structure AtPrefix (s : Rde) (k : RtKey) (node : Option RtNode → Option RtNode × List Out) (result : Rde × List Out) :
    Prop where
  keys : DistinctKeys result.1
  find : ∀ k', result.1.find k' = if k = k' then (node (s.find k)).1 else s.find k'
  nbrs : result.1.nbrs = s.nbrs
  out : result.2 = (node (s.find k)).2

section

variable {eigrp : Eigrp} {ri : Rinfo} {w : Work} {node : Option RtNode → Option RtNode × List Out} {out : List Out}

include h in
theorem commit_atPrefix (hfind : rtFind s eigrp ri = some rn) (hw : w.rn.key = rn.key) (hnode : node (some rn) = w.result)
    : AtPrefix s (ri.key eigrp) node (s.commit eigrp ri w, w.out) := by
  have hsome := rtFind_eq s eigrp ri
  rw [hfind] at hsome
  have hkey : w.rn.key = ri.key eigrp := hw.trans (find_some hsome.symm).2
  rw [hsome] at hnode
  refine ⟨commit_distinct h hkey, ?_, rfl, ?_⟩
  . rw [hnode]
    exact find_commit h hkey hfind
  . rw [hnode]
    rfl

include h in
theorem add_atPrefix (hfind : rtFind s eigrp ri = none) (hw : w.rn.key = ri.key eigrp)
    (hnode : node none = (w.node?, out))
    : AtPrefix s (ri.key eigrp) node (s.add w, out) := by
  have hadd := find_add hw hfind
  refine ⟨add_distinct h hw hfind, ?_, ?_, ?_⟩
  . rw [← rtFind_eq, hfind, hnode]
    exact hadd
  . unfold Rde.add
    dsimp only
    split <;> rfl
  . rw [← rtFind_eq, hfind, hnode]

include h in
theorem same_atPrefix (hfind : rtFind s eigrp ri = none) (hnode : node none = (none, out))
    : AtPrefix s (ri.key eigrp) node (s, out) := by
  rw [rtFind_eq] at hfind
  refine ⟨h, fun k' => ?_, rfl, ?_⟩
  . rw [hfind, hnode]
    split
    . next hk =>
      subst hk
      exact hfind
    . rfl
  . rw [hfind, hnode]

end

variable (eigrp : Eigrp) (nbr : RdeNbr) (ri : Rinfo)

include h in
theorem rdeCheckUpdate_atPrefix
    : AtPrefix s (ri.key eigrp) (updateNode conf s.nbrs eigrp nbr ri) (rdeCheckUpdate conf s eigrp nbr ri) := by
  unfold rdeCheckUpdate
  split
  . next hfind =>
    split
    . next hdelay =>
      apply same_atPrefix h hfind
      rw [updateNode, if_pos hdelay]
    rename_i hdelay
    apply add_atPrefix h hfind
    . rw [rdeCheckUpdate.switch_key, routeNew_key]
    . rw [updateNode, if_neg hdelay]
      rfl
  rename_i rn hfind
  apply commit_atPrefix h hfind _ rfl
  rw [rdeCheckUpdate.switch_key]
  exact (routeSet_quiet conf (Work.start rn) nbr ri).key

include h in
theorem rdeCheckQuery_atPrefix (siaquery : Bool)
    : AtPrefix s (ri.key eigrp) (queryNode conf s.nbrs eigrp nbr ri siaquery)
      (rdeCheckQuery conf s eigrp nbr ri siaquery) := by
  unfold rdeCheckQuery
  split
  . next hfind =>
    dsimp only
    split
    . next hdelay =>
      apply same_atPrefix h hfind
      unfold queryNode
      rw [if_pos hdelay]
    rename_i hdelay
    apply add_atPrefix h hfind
    . rw [← routeNew_key conf eigrp nbr ri]
      exact (rtSetSuccessor_quiet _ _).key
    unfold queryNode
    rw [if_neg hdelay]
  rename_i rn hfind
  apply commit_atPrefix h hfind _ rfl
  rw [rdeCheckQuery.found_key]
  rfl

include h in
theorem rdeCheckReply_atPrefix (siareply : Bool)
    : AtPrefix s (ri.key eigrp) (replyNode conf s.nbrs nbr ri siareply)
      (rdeCheckReply conf s eigrp nbr ri siareply) := by
  unfold rdeCheckReply
  split
  . next hfind => exact same_atPrefix h hfind rfl
  rename_i rn hfind
  apply commit_atPrefix h hfind _ rfl
  rw [rdeCheckReply.found_key]
  rfl

include h in
theorem rdeCheckLinkDownNbr_find
    : DistinctKeys (rdeCheckLinkDownNbr conf s eigrp nbr).1
      ∧ ∀ k, (rdeCheckLinkDownNbr conf s eigrp nbr).1.find k
        = (linkDownNode conf s.nbrs eigrp nbr (s.find k)).1 := by
  have hf (rn : RtNode) := node?_key (linkDownWork_key conf s.nbrs eigrp nbr rn)
  unfold rdeCheckLinkDownNbr
  dsimp only
  rw [filterMap_map]
  refine ⟨filterMap_distinct h hf, fun k => ?_⟩
  have hfind := find_filterMap h hf k
  cases hk : s.find k with
  | none | some rn =>
    rw [hk] at hfind
    exact hfind

include h in
theorem rdeCheckLinkDown.go_find (ifindex : Nat) (rest : List RdeNbr)
    : DistinctKeys (go conf ifindex s rest).1
      ∧ ∀ k, (go conf ifindex s rest).1.find k = (ifDownNode conf s.nbrs ifindex (s.find k) rest).1 := by
  induction rest generalizing s with
  | nil => exact ⟨h, fun _ => rfl⟩
  | cons nbr rest ih =>
    unfold go ifDownNode
    cases nbr.ei with
    | none => exact ih h
    | some ei =>
      dsimp only
      split
      . have hlink := rdeCheckLinkDownNbr_find conf h ei.eigrp nbr
        have hrest := ih hlink.1
        refine ⟨hrest.1, fun k => ?_⟩
        rw [← hlink.2]
        exact hrest.2 k
      . exact ih h

theorem rdeNbrDel_find (nbr : RdeNbr) (peerterm : Bool) {s : Rde} (h : DistinctKeys s)
    : DistinctKeys (rdeNbrDel s nbr peerterm).1
      ∧ ∀ k, (rdeNbrDel s nbr peerterm).1.find k = (s.find k).map (removeReplies nbr) :=
  ⟨map_distinct h (removeReplies_key nbr), find_map h (removeReplies_key nbr)⟩

theorem replySiaTimer_eq_siaReply (s : Rde) (rn : RtNode) (reply : ReplyNode)
    (hdelete : ¬(reply.siaquerySent > 0 ∧ ¬reply.siareplyRecv))
    : (replySiaTimer s rn reply).1
      = { s with topology := s.topology.map (setReply rn reply (siaReply reply)) } := by
  unfold replySiaTimer siaReply
  rw [if_neg hdelete]
  split <;> rfl

theorem sender_of_fromNbr {peerid : UInt32} {s s' : Rde} {handle : Eigrp → RdeNbr → Rde}
    (h : FromNbr s peerid s' handle)
    : sender s peerid = none ∧ s' = s
      ∨ ∃ eigrp nbr, sender s peerid = some (eigrp, nbr) ∧ s' = handle eigrp nbr := by
  unfold sender
  rcases h with ⟨hfind, hsame⟩ | ⟨nbr, eigrp, hfind, heigrp, hs'⟩
  . apply Or.inl
    rw [hfind]
    exact ⟨rfl, hsame⟩
  apply Or.inr
  refine ⟨eigrp, nbr, ?_, hs'⟩
  rw [hfind, Option.bind_some, heigrp]
  rfl

theorem AtPrefix.about {k : RtKey} {eigrp : Eigrp} {nbr : RdeNbr} {ri : Rinfo} {result : Rde × List Out}
    {node : Eigrp → RdeNbr → Option RtNode → Option RtNode × List Out}
    (hat : AtPrefix s (ri.key eigrp) (node eigrp nbr) result)
    : result.1.find k = (aboutPrefix s k ri (some (eigrp, nbr)) node).1 := by
  rw [hat.find, aboutPrefix]
  split
  . next hk => rw [hk]
  . rfl

include h in
theorem message_find {peerid : UInt32} {ri : Rinfo} {s' : Rde} {handle : Eigrp → RdeNbr → Rde × List Out}
    {node : Eigrp → RdeNbr → Option RtNode → Option RtNode × List Out}
    (hfrom : FromNbr s peerid s' fun eigrp nbr => (handle eigrp nbr).1)
    (hhandle : ∀ eigrp nbr, AtPrefix s (ri.key eigrp) (node eigrp nbr) (handle eigrp nbr))
    : DistinctKeys s' ∧ ∀ k, s'.find k = (aboutPrefix s k ri (sender s peerid) node).1 := by
  rcases sender_of_fromNbr hfrom with ⟨hsender, rfl⟩ | ⟨eigrp, nbr, hsender, rfl⟩
  . rw [hsender]
    exact ⟨h, fun _ => rfl⟩
  rw [hsender]
  exact ⟨(hhandle eigrp nbr).keys, fun _ => (hhandle eigrp nbr).about⟩

theorem rdeStep_find {s' : Rde} {event : Event} (h : DistinctKeys s) (hstep : rdeStep conf s event = some s')
    : DistinctKeys s' ∧ ∀ k, s'.find k = (nodeStep conf s k event).1 := by
  have houtcome := rdeStep_outcome conf hstep
  cases event with
  | neighborUp peerid new =>
    rw [houtcome]
    unfold rdeNbrNew
    dsimp only
    split
    . exact ⟨h, fun _ => rfl⟩
    . exact ⟨h, fun _ => rfl⟩
  | neighborDown peerid =>
    rcases sender_of_fromNbr houtcome with ⟨hsender, rfl⟩ | ⟨eigrp, nbr, hsender, rfl⟩
    . refine ⟨h, fun k => ?_⟩
      simp only [nodeStep, hsender]
    have hlink := rdeCheckLinkDownNbr_find conf h eigrp nbr
    have hdel := rdeNbrDel_find nbr false hlink.1
    refine ⟨hdel.1, fun k => ?_⟩
    simp only [nodeStep, hsender]
    rw [hdel.2, hlink.2]
  | recvUpdateInit peerid =>
    rw [houtcome]
    exact ⟨h, fun _ => rfl⟩
  | recvUpdate peerid ri =>
    exact message_find h houtcome fun eigrp nbr => rdeCheckUpdate_atPrefix conf h eigrp nbr ri
  | recvQuery peerid ri sia =>
    exact message_find h houtcome fun eigrp nbr => rdeCheckQuery_atPrefix conf h eigrp nbr ri sia
  | recvReply peerid ri sia =>
    exact message_find h houtcome fun eigrp nbr => rdeCheckReply_atPrefix conf h eigrp nbr ri sia
  | ifDown ifindex =>
    rw [houtcome]
    exact rdeCheckLinkDown.go_find conf h ifindex s.nbrs
  | redistribute eigrp ri =>
    have hupdate := rdeCheckUpdate_atPrefix conf h eigrp (rnbrRedist eigrp) ri
    rw [houtcome]
    exact ⟨hupdate.keys, fun _ => hupdate.about⟩
  | activeTimer rn reply =>
    rw [houtcome.2.2]
    exact rdeNbrDel_find reply.nbr true h
  | siaTimer rn reply =>
    rw [houtcome.2.2]
    by_cases hdelete : reply.siaquerySent > 0 ∧ ¬reply.siareplyRecv
    . have hsia := replySiaTimer_eq s rn reply
      rw [if_pos hdelete] at hsia
      have hdel := rdeNbrDel_find reply.nbr true h
      rw [hsia]
      refine ⟨hdel.1, fun k => ?_⟩
      rw [hdel.2, nodeStep, if_pos hdelete]
    rw [replySiaTimer_eq_siaReply s rn reply hdelete]
    refine ⟨map_distinct h (setReply_key rn reply _), fun k => ?_⟩
    rw [find_map h (setReply_key rn reply _), nodeStep, if_neg hdelete]

end

end

end Eigrpd
