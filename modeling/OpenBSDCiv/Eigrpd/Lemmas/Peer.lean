import OpenBSDCiv.Eigrpd.Lemmas.Rtp
import OpenBSDCiv.Eigrpd.Link

namespace Eigrpd

open List

def Unicast (nbr : Nbr) (out : List Sent) : Prop :=
  ∀ x ∈ out, x.nbr = some nbr.ptr ∧ x.buf.ackNum = nbr.recvSeq

variable {nbr : Nbr} {out : List Sent} {buf : Ibuf}

theorem Unicast.append {out' : List Sent} (h : Unicast nbr out) (h' : Unicast nbr out')
    : Unicast nbr (out ++ out') := by
  intro x hx
  rcases mem_append.mp hx with hx | hx
  . exact h x hx
  . exact h' x hx

theorem Unicast.nil (nbr : Nbr) : Unicast nbr [] := by
  intro x hx
  contradiction

theorem Unicast.arriving_other {nbr' : Nbr} (h : Unicast nbr' out) (hptr : nbr'.ptr ≠ nbr.ptr)
    : arriving nbr out = [] := by
  unfold arriving
  rw [map_eq_nil_iff, filter_eq_nil_iff]
  intro x hx
  simp [(h x hx).1, hptr]

theorem Unicast.ackNum (h : Unicast nbr out) (hbuf : buf ∈ arriving nbr out)
    : buf.ackNum = nbr.recvSeq := by
  rcases mem_map.mp hbuf with ⟨x, hx, rfl⟩
  exact (h x (mem_of_mem_filter hx)).2

theorem arriving_append (nbr : Nbr) (out out' : List Sent)
    : arriving nbr (out ++ out') = arriving nbr out ++ arriving nbr out' := by
  unfold arriving
  rw [filter_append, map_append]

theorem arriving_mem (h : buf ∈ arriving nbr out) : ∃ x ∈ out, x.buf = buf := by
  rcases mem_map.mp h with ⟨x, hx, hbuf⟩
  exact ⟨x, mem_of_mem_filter hx, hbuf⟩

def copies (nbr : Nbr) (out : List Sent) : List Ibuf :=
  ((arriving nbr out).filter Ibuf.reliable).map Ibuf.withoutAck

theorem copies_append (nbr : Nbr) (out out' : List Sent)
    : copies nbr (out ++ out') = copies nbr out ++ copies nbr out' := by
  unfold copies
  rw [arriving_append, filter_append, map_append]

theorem copies_unreliable (h : ∀ buf ∈ arriving nbr out, buf.seqNum = 0) : copies nbr out = [] := by
  unfold copies
  rw [map_eq_nil_iff, filter_eq_nil_iff]
  intro buf hbuf
  simp [Ibuf.reliable, h buf hbuf]

theorem copies_singleton (nbr : Nbr) (x : Sent)
    : copies nbr [x] = [] ∨ copies nbr [x] = [x.buf.withoutAck] := by
  have hsub : (copies nbr [x]).Sublist [x.buf.withoutAck] := by
    exact ((filter_sublist.trans (filter_sublist.map Sent.buf)).map Ibuf.withoutAck)
  exact sublist_singleton.mp hsub

section

variable (up : EigrpIface → Bool)

variable {ei : EigrpIface} {flags : UInt32} {buf : Ibuf} {x : Sent}

theorem sendPacket_mem {nbr : Option Nbr} (h : x ∈ (sendPacket up ei nbr flags buf).2)
    : x.ei = ei ∧ x.nbr = nbr.map Nbr.ptr ∧ x.buf.seqNum = buf.seqNum
      ∧ x.buf.ackNum = (nbr.map Nbr.recvSeq).getD buf.ackNum := by
  unfold sendPacket at h
  split at h
  . rw [mem_singleton.mp h]
    cases nbr with
    | none | some nbr => split <;> exact ⟨rfl, rfl, rfl, rfl⟩
  . contradiction

theorem sendPacket_unicast (nbr : Nbr) (flags : UInt32) (buf : Ibuf)
    : Unicast nbr (sendPacket up nbr.ei (some nbr) flags buf).2 := by
  intro x hx
  have ⟨_, hnbr, _, hack⟩ := sendPacket_mem up hx
  exact ⟨hnbr, hack⟩

theorem sendPacket_unreliable (hseq : buf.seqNum = 0) (to_ : Option Nbr) (nbr : Nbr)
    : ∀ buf' ∈ arriving nbr (sendPacket up ei to_ flags buf).2, buf'.seqNum = 0 := by
  intro buf' hbuf'
  rcases arriving_mem hbuf' with ⟨x, hx, rfl⟩
  have ⟨_, _, hsame, _⟩ := sendPacket_mem up hx
  exact hsame.trans hseq

theorem sendPacket_withoutAck (ei : EigrpIface) (nbr : Option Nbr) (buf : Ibuf)
    : (sendPacket up ei nbr 0 buf).1.withoutAck = buf.withoutAck
      ∧ (sendPacket up ei nbr 0 buf).1.seqNum = buf.seqNum := by
  unfold sendPacket
  split
  . cases nbr with
    | none | some nbr => exact ⟨rfl, rfl⟩
  . exact ⟨rfl, rfl⟩

theorem sendPacket_copies (nbr : Nbr) (ei : EigrpIface) (to_ : Option Nbr) (buf : Ibuf)
    : copies nbr (sendPacket up ei to_ 0 buf).2 = []
      ∨ copies nbr (sendPacket up ei to_ 0 buf).2 = [buf.withoutAck] := by
  have hbuf := (sendPacket_withoutAck up ei to_ buf).1
  revert hbuf
  unfold sendPacket
  split
  . intro hbuf
    rw [← hbuf]
    apply copies_singleton
  . intro _
    exact Or.inl rfl

theorem rtpEnqueuePacket_unicast (nbr : Nbr) (pkt : Packet)
    : (rtpEnqueuePacket up nbr pkt).1.recvSeq = nbr.recvSeq ∧ Unicast nbr (rtpEnqueuePacket up nbr pkt).2 := by
  unfold rtpEnqueuePacket
  split
  . exact ⟨rfl, sendPacket_unicast up nbr 0 pkt.buf⟩
  . exact ⟨rfl, Unicast.nil nbr⟩

theorem rtpProcessAck_unicast (nbr : Nbr) (ackNum : UInt32)
    : (rtpProcessAck up nbr ackNum).1.recvSeq = nbr.recvSeq ∧ Unicast nbr (rtpProcessAck up nbr ackNum).2 := by
  unfold rtpProcessAck
  split
  . exact ⟨rfl, Unicast.nil nbr⟩
  split
  . split
    . exact ⟨rfl, Unicast.nil nbr⟩
    . exact ⟨rfl, sendPacket_unicast up { nbr with retransList := _ } 0 _⟩
  . exact ⟨rfl, Unicast.nil nbr⟩

theorem rtpSendAck_unicast (nbr : Nbr) : Unicast nbr (rtpSendAck up nbr) :=
  sendPacket_unicast up nbr 0 _

def afterAck (nbr : Nbr) (buf : Ibuf) : Nbr × List Sent :=
  if buf.ackNum ≠ 0 then rtpProcessAck up nbr buf.ackNum else (nbr, [])

theorem afterAck_unicast (nbr : Nbr) (buf : Ibuf) : Unicast nbr (afterAck up nbr buf).2 := by
  unfold afterAck
  split
  . exact (rtpProcessAck_unicast up nbr buf.ackNum).2
  . exact Unicast.nil nbr

theorem afterAck_same (nbr : Nbr) (buf : Ibuf)
    : nbr.Same (afterAck up nbr buf).1 ∧ (afterAck up nbr buf).1.recvSeq = nbr.recvSeq := by
  unfold afterAck
  split
  . exact ⟨rtpProcessAck_same up nbr buf.ackNum, (rtpProcessAck_unicast up nbr buf.ackNum).1⟩
  . exact ⟨⟨rfl, rfl, rfl, rfl⟩, rfl⟩

def Nbr.Expects (nbr : Nbr) (seqNum : UInt32) : Prop :=
  ¬(nbr.recvSeq ≥ seqNum ∧ ¬(nbr.recvSeq = uint32Max ∧ seqNum = 1))

instance (nbr : Nbr) (seqNum : UInt32) : Decidable (nbr.Expects seqNum) :=
  inferInstanceAs (Decidable (¬_))

theorem ackSeq_eq (nbr : Nbr) (buf : Ibuf)
    : recvPacketNbr.ackSeq up nbr buf
      = if buf.seqNum = 0 then
          ((afterAck up nbr buf).1, (afterAck up nbr buf).2, true)
        else if nbr.Expects buf.seqNum then
          ({ (afterAck up nbr buf).1 with recvSeq := buf.seqNum }, (afterAck up nbr buf).2, true)
        else
          ((afterAck up nbr buf).1, (afterAck up nbr buf).2 ++ rtpSendAck up (afterAck up nbr buf).1, false) := by
  have hrecvSeq := (afterAck_same up nbr buf).2
  unfold recvPacketNbr.ackSeq
  unfold afterAck at hrecvSeq ⊢
  generalize (if buf.ackNum ≠ 0 then rtpProcessAck up nbr buf.ackNum else (nbr, [])) = r at hrecvSeq ⊢
  dsimp only
  rw [hrecvSeq]
  by_cases hseq : buf.seqNum = 0
  . rw [if_neg (not_not.mpr hseq), if_pos hseq]
  rw [if_pos hseq, if_neg hseq]
  by_cases h : nbr.Expects buf.seqNum
  . rw [if_pos h]
    exact if_neg h
  . rw [if_neg h]
    exact if_pos (not_not.mp h)

theorem recvPacketNbr_unicast (self : EigrpdAddr) (nbr : Nbr) (buf : Ibuf)
    : Unicast nbr (recvPacketNbr up self nbr buf).2.1 := by
  rcases recvPacketNbr_cases up self nbr buf with ⟨crMode, nextMcastSeq, h | ⟨_, h⟩⟩
  . rw [h, ackSeq_eq]
    generalize hnbr : { nbr with crMode, nextMcastSeq } = nbr'
    have hunicast : Unicast nbr' (afterAck up nbr' buf).2 := afterAck_unicast up nbr' buf
    have hack := rtpSendAck_unicast up (afterAck up nbr' buf).1
    have hsame := afterAck_same up nbr' buf
    unfold Unicast at hack hunicast
    rw [hsame.1.1, hsame.2] at hack
    rw [← hnbr] at hack hunicast
    subst hnbr
    split
    . exact hunicast
    split
    . exact hunicast
    . exact Unicast.append hunicast hack
  . rw [h]
    exact Unicast.nil nbr

end

structure Nbr.Queue (nbr : Nbr) (bufs : List Ibuf) : Prop where
  bufs_eq : nbr.retransList.map (fun pkt => pkt.buf.withoutAck) = bufs
  seqNum_eq : ∀ pkt ∈ nbr.retransList, pkt.seqNum = pkt.buf.seqNum
  unarmed : ∀ pkt ∈ nbr.retransList.tail, pkt.evTimeout = false

theorem Nbr.Queue.nil {nbr : Nbr} (h : nbr.retransList = []) : nbr.Queue [] := by
  constructor
  . rw [h, map_nil]
  . simp [h]
  . simp [h]

theorem Nbr.Queue.append {nbr : Nbr} {bufs : List Ibuf} (h : nbr.Queue bufs) {pkt : Packet}
    (hseqNum : pkt.seqNum = pkt.buf.seqNum) (hunarmed : nbr.retransList ≠ [] → pkt.evTimeout = false)
    : { nbr with retransList := nbr.retransList ++ [pkt] }.Queue (bufs ++ [pkt.buf.withoutAck]) := by
  constructor
  . simp only [map_append, h.bufs_eq, map_cons, map_nil]
  . intro pkt' hpkt'
    rcases mem_append.mp hpkt' with hpkt' | hpkt'
    . exact h.seqNum_eq pkt' hpkt'
    . rw [mem_singleton.mp hpkt']
      exact hseqNum
  intro pkt' hpkt'
  have htail := h.unarmed
  cases hlist : nbr.retransList with
  | nil => simp [hlist] at hpkt'
  | cons head rest =>
    simp only [hlist, cons_append, tail_cons, mem_append, mem_singleton] at hpkt' htail
    rcases hpkt' with hpkt' | rfl
    . exact htail pkt' hpkt'
    apply hunarmed
    rw [hlist]
    exact cons_ne_nil _ _

section

variable (up : EigrpIface → Bool)

theorem rtpSendPacket_buf (nbr : Nbr) (pkt : Packet)
    : (rtpSendPacket up nbr pkt).1.buf.withoutAck = pkt.buf.withoutAck
      ∧ (rtpSendPacket up nbr pkt).1.buf.seqNum = pkt.buf.seqNum :=
  sendPacket_withoutAck up nbr.ei (some nbr) pkt.buf

theorem rtpSendPacket_copies (nbr nbr' : Nbr) (pkt : Packet)
    : copies nbr' (rtpSendPacket up nbr pkt).2 = []
      ∨ copies nbr' (rtpSendPacket up nbr pkt).2 = [pkt.buf.withoutAck] :=
  sendPacket_copies up nbr' nbr.ei (some nbr) pkt.buf

variable {nbr : Nbr} {bufs : List Ibuf} {buf : Ibuf}

theorem rtpEnqueuePacket_queue (h : nbr.Queue bufs) {pkt : Packet}
    (hseqNum : pkt.seqNum = pkt.buf.seqNum) (hunarmed : pkt.evTimeout = false)
    : (rtpEnqueuePacket up nbr pkt).1.Queue (bufs ++ [pkt.buf.withoutAck])
      ∧ (copies nbr (rtpEnqueuePacket up nbr pkt).2 = []
        ∨ copies nbr (rtpEnqueuePacket up nbr pkt).2 = (bufs ++ [pkt.buf.withoutAck]).head?.toList) := by
  unfold rtpEnqueuePacket
  split
  . next hlist =>
    have hbufs : bufs = [] := by
      rw [← h.bufs_eq, hlist, map_nil]
    have hbuf := rtpSendPacket_buf up nbr pkt
    constructor
    . have hsent : (rtpSendPacket up nbr pkt).1.seqNum = (rtpSendPacket up nbr pkt).1.buf.seqNum :=
        (rtpSendPacket_seqNum up nbr pkt).trans (hseqNum.trans hbuf.2.symm)
      have hqueue := h.append hsent (fun hne => absurd hlist hne)
      rw [hlist, hbuf.1] at hqueue
      exact hqueue
    . rw [hbufs]
      exact rtpSendPacket_copies up nbr nbr pkt
  . next hlist =>
    exact ⟨h.append hseqNum (fun _ => hunarmed), Or.inl rfl⟩

theorem rtpProcessAck_queue (h : nbr.Queue bufs) (ackNum : UInt32)
    : (rtpProcessAck up nbr ackNum).1.Queue bufs ∧ copies nbr (rtpProcessAck up nbr ackNum).2 = []
      ∨ ∃ buf rest, bufs = buf :: rest ∧ buf.seqNum = ackNum ∧ (rtpProcessAck up nbr ackNum).1.Queue rest
        ∧ (copies nbr (rtpProcessAck up nbr ackNum).2 = []
          ∨ copies nbr (rtpProcessAck up nbr ackNum).2 = rest.head?.toList) := by
  unfold rtpProcessAck
  split
  . exact Or.inl ⟨h, rfl⟩
  rename_i pkt rest hlist
  have hbufs := h.bufs_eq
  have hseqNum := h.seqNum_eq
  have hunarmed := h.unarmed
  rw [hlist] at hbufs hseqNum hunarmed
  rw [forall_mem_cons] at hseqNum
  split
  . next hack =>
    refine Or.inr ⟨pkt.buf.withoutAck, rest.map fun pkt => pkt.buf.withoutAck, ?_, ?_, ?_⟩
    . rw [← hbufs, map_cons]
    . rw [← hack]
      exact hseqNum.1.symm
    split
    . exact ⟨Nbr.Queue.nil rfl, Or.inl rfl⟩
    rename_i pkt' rest'
    generalize hnbr : { nbr with retransList := pkt' :: rest' } = nbr'
    have hbuf := rtpSendPacket_buf up nbr' pkt'
    have hhead := (forall_mem_cons.mp hseqNum.2).1
    refine ⟨⟨?_, ?_, ?_⟩, rtpSendPacket_copies up nbr' nbr pkt'⟩
    . simp only [map_cons, hbuf.1]
    . rw [forall_mem_cons]
      refine ⟨?_, (forall_mem_cons.mp hseqNum.2).2⟩
      exact (rtpSendPacket_seqNum up nbr' pkt').trans (hhead.trans hbuf.2.symm)
    . intro pkt'' hpkt''
      exact hunarmed pkt'' (mem_cons_of_mem _ hpkt'')
  . exact Or.inl ⟨h, rfl⟩

theorem recvPacketNbr_queue (h : nbr.Queue bufs) (self : EigrpdAddr) (buf : Ibuf)
    : (recvPacketNbr up self nbr buf).1.Queue bufs ∧ copies nbr (recvPacketNbr up self nbr buf).2.1 = []
      ∨ ∃ head rest, bufs = head :: rest ∧ buf.ackNum ≠ 0 ∧ head.seqNum = buf.ackNum
        ∧ (recvPacketNbr up self nbr buf).1.Queue rest
        ∧ (copies nbr (recvPacketNbr up self nbr buf).2.1 = []
          ∨ copies nbr (recvPacketNbr up self nbr buf).2.1 = rest.head?.toList) := by
  rcases recvPacketNbr_cases up self nbr buf with ⟨crMode, nextMcastSeq, hrecv | ⟨_, hrecv⟩⟩
  . generalize hnbr : { nbr with crMode, nextMcastSeq } = nbr' at hrecv
    have h' : nbr'.Queue bufs := by
      rw [← hnbr]
      exact ⟨h.bufs_eq, h.seqNum_eq, h.unarmed⟩
    have hcopies : ∀ out, copies nbr out = copies nbr' out := by
      intro out
      rw [← hnbr]
      rfl
    -- The sequence number of the packet changes neither the queue nor the copies.
    have hqueue : ∀ bufs, (afterAck up nbr' buf).1.Queue bufs → (recvPacketNbr up self nbr buf).1.Queue bufs := by
      intro bufs hqueue
      rw [hrecv, ackSeq_eq]
      split
      . exact hqueue
      split
      . exact ⟨hqueue.bufs_eq, hqueue.seqNum_eq, hqueue.unarmed⟩
      . exact hqueue
    have hout : copies nbr (recvPacketNbr up self nbr buf).2.1 = copies nbr' (afterAck up nbr' buf).2 := by
      rw [hrecv, ackSeq_eq, hcopies]
      split
      . rfl
      split
      . rfl
      . rw [copies_append, rtpSendAck, copies_unreliable (sendPacket_unreliable up (by rfl) _ nbr'), append_nil]
    rw [hout]
    unfold afterAck at hqueue ⊢
    split at hqueue
    . next hack =>
      rw [if_pos hack]
      rcases rtpProcessAck_queue up h' buf.ackNum with ⟨hsame, hnone⟩ | ⟨head, rest, hbufs, hseq, hrest, hsome⟩
      . exact Or.inl ⟨hqueue bufs hsame, hnone⟩
      . exact Or.inr ⟨head, rest, hbufs, hack, hseq, hqueue rest hrest, hsome⟩
    rename_i hack
    rw [if_neg hack]
    exact Or.inl ⟨hqueue bufs h', rfl⟩
  . rw [hrecv]
    exact Or.inl ⟨⟨h.bufs_eq, h.seqNum_eq, h.unarmed⟩, rfl⟩

theorem recvPacketNbr_recvSeq (self : EigrpdAddr) (nbr : Nbr) (hcr : buf.flags &&& eigrpHdrFlagCr = 0)
    (hseq : buf.seqNum ≠ 0)
    : if nbr.Expects buf.seqNum then
        (recvPacketNbr up self nbr buf).2.2 = true ∧ (recvPacketNbr up self nbr buf).1.recvSeq = buf.seqNum
      else
        (recvPacketNbr up self nbr buf).2.2 = false
          ∧ (recvPacketNbr up self nbr buf).1.recvSeq = nbr.recvSeq := by
  rcases recvPacketNbr_cases up self nbr buf with ⟨crMode, nextMcastSeq, hrecv | ⟨hcr', _⟩⟩
  . generalize hnbr : { nbr with crMode, nextMcastSeq } = nbr' at hrecv
    have hexpects : nbr'.Expects buf.seqNum ↔ nbr.Expects buf.seqNum := by
      rw [← hnbr]
      rfl
    rw [hrecv, ackSeq_eq, if_neg hseq]
    split
    . next h =>
      rw [if_pos (hexpects.mpr h)]
      exact ⟨rfl, rfl⟩
    rename_i h
    rw [if_neg (hexpects.not.mpr h)]
    refine ⟨rfl, ?_⟩
    rw [(afterAck_same up nbr' buf).2, ← hnbr]
  . contradiction

theorem recvPacketNbr_recvSeq_unreliable (self : EigrpdAddr) (nbr : Nbr) (hseq : buf.seqNum = 0)
    : (recvPacketNbr up self nbr buf).1.recvSeq = nbr.recvSeq := by
  rcases recvPacketNbr_cases up self nbr buf with ⟨crMode, nextMcastSeq, hrecv | ⟨_, hrecv⟩⟩
  . rw [hrecv, ackSeq_eq, if_pos hseq]
    exact (afterAck_same up _ buf).2
  . rw [hrecv]

end

namespace Eigrpe

variable {s : Eigrpe}

theorem buf_ackNum (eigrp : Eigrp) (msg : Message) : (s.buf eigrp msg).ackNum = 0 := rfl

theorem buf_flags (eigrp : Eigrp) (msg : Message) : (s.buf eigrp msg).flags &&& eigrpHdrFlagCr = 0 := by
  unfold buf genEigrpHdr
  dsimp only
  split
  . rfl
  . rfl

variable {ei : EigrpIface} {nbr nbr' : Nbr} {event : Event} {out : List Sent} {msg : Message} {bufs : List Ibuf}

theorem send_multicast {buf : Ibuf} {x : Sent} (h : x ∈ (rtpSendMcast.send s ei buf).2)
    : x.ei = ei ∧ x.nbr = none ∧ (x.buf.ackNum = 0 ∨ x.buf.ackNum = buf.ackNum) := by
  unfold rtpSendMcast.send at h
  split at h
  . split at h
    . rcases mem_append.mp h with h | h
      . rcases sendPacket_mem s.up h with ⟨hei, hnbr, _, hack⟩
        exact ⟨hei, hnbr, Or.inl hack⟩
      . rcases sendPacket_mem s.up h with ⟨hei, hnbr, _, hack⟩
        exact ⟨hei, hnbr, Or.inr hack⟩
    . rcases sendPacket_mem s.up h with ⟨hei, hnbr, _, hack⟩
      exact ⟨hei, hnbr, Or.inr hack⟩
  . contradiction

inductive PeerStep (s : Eigrpe) (nbr : Nbr) : Event → Nbr → List Sent → Prop where
  | quiet {event : Event} {out : List Sent} (addressed : s.addressed nbr event = [])
      (unreliable : ∀ buf ∈ arriving nbr out, buf.seqNum = 0)
      (ackNum : ∀ buf ∈ arriving nbr out, buf.ackNum = 0 ∨ buf.ackNum = nbr.recvSeq) : PeerStep s nbr event nbr out
  | ucast {msg : Message} {pkt : Packet}
      (pkt_eq : pkt = rtpPacketNew (s.seqNum nbr.ei.eigrp) (s.buf nbr.ei.eigrp msg)) :
    PeerStep s nbr (.sendUcast nbr.ptr msg) (rtpEnqueuePacket s.up nbr pkt).1 (rtpEnqueuePacket s.up nbr pkt).2
  | mcast {msg : Message} {pkt : Packet} (total : s.total nbr.ei ≠ 0)
      (pkt_eq : pkt = rtpPacketNew (s.seqNum nbr.ei.eigrp)
        (rtpSendMcast.send s nbr.ei (s.buf nbr.ei.eigrp msg)).1) :
    PeerStep s nbr (.sendMcast nbr.ei msg) { nbr with retransList := nbr.retransList ++ [pkt] }
      (rtpSendMcast.send s nbr.ei (s.buf nbr.ei.eigrp msg)).2
  | timer {i attempts : Nat} {pkt : Packet} (pkt_eq : nbr.retransList[i]? = some pkt) (armed : pkt.evTimeout = true) :
    PeerStep s nbr (.retransTimer nbr.ptr i)
      { nbr with retransList := nbr.retransList.set i (rtpSendPacket s.up nbr { pkt with attempts }).1 }
      (rtpSendPacket s.up nbr { pkt with attempts }).2

open PeerStep

theorem PeerStep.silent (addressed : s.addressed nbr event = []) (h : arriving nbr out = [])
    : PeerStep s nbr event nbr out := by
  apply quiet addressed
  . simp [h]
  . simp [h]

theorem PeerStep.withNbr {ptr : Nat} {f : Nbr → Eigrpe × List Sent} (hfind : s.find nbr.ptr = some nbr)
    (addressed : ptr ≠ nbr.ptr → s.addressed nbr event = [])
    (hself : ptr = nbr.ptr → (f nbr).1.find nbr.ptr = some nbr' → PeerStep s nbr event nbr' (f nbr).2)
    (hother : ∀ tmp, tmp.ptr ≠ nbr.ptr → (f tmp).1.find nbr.ptr = s.find nbr.ptr ∧ Unicast tmp (f tmp).2)
    (hfind' : (s.withNbr ptr f).1.find nbr.ptr = some nbr')
    : PeerStep s nbr event nbr' (s.withNbr ptr f).2 := by
  unfold Eigrpe.withNbr at hfind' ⊢
  split at hfind'
  . next tmp htmp =>
    by_cases hptr : ptr = nbr.ptr
    . rw [hptr] at htmp
      cases hfind.symm.trans htmp
      exact hself hptr hfind'
    have hne : tmp.ptr ≠ nbr.ptr := find_ptr htmp ▸ hptr
    rcases hother tmp hne with ⟨hsame, hunicast⟩
    cases (hsame.trans hfind).symm.trans hfind'
    exact silent (addressed hptr) (hunicast.arriving_other hne)
  rename_i hnone
  cases hfind.symm.trans hfind'
  apply silent (addressed _) rfl
  rintro rfl
  rw [hfind] at hnone
  contradiction

theorem rtpSendUcast_peer (hfind : s.find nbr.ptr = some nbr)
    (hfind' : (s.rtpSendUcast nbr (s.buf nbr.ei.eigrp msg)).1.find nbr.ptr = some nbr')
    : PeerStep s nbr (.sendUcast nbr.ptr msg) nbr' (s.rtpSendUcast nbr (s.buf nbr.ei.eigrp msg)).2 := by
  have hput := fun pkt => find_put_self hfind (rtpEnqueuePacket_same s.up nbr pkt).1
  cases (hput _).symm.trans hfind'
  exact ucast rfl

theorem rtpRetransTimer_peer {i : Nat} (hfind : s.find nbr.ptr = some nbr)
    : (s.rtpRetransTimer nbr i).1.find nbr.ptr = some nbr' →
      PeerStep s nbr (.retransTimer nbr.ptr i) nbr' (s.rtpRetransTimer nbr i).2 := by
  unfold rtpRetransTimer
  split
  . intro hfind'
    cases hfind.symm.trans hfind'
    exact silent rfl rfl
  rename_i pkt hpkt
  dsimp only
  split
  . next harmed =>
    split
    . rw [find_nbrDel_self rfl]
      intro hfind'
      contradiction
    intro hfind'
    have hput := fun list : List Packet =>
      find_put_self hfind (show { nbr with retransList := list }.ptr = nbr.ptr from rfl)
    cases (hput _).symm.trans hfind'
    exact timer hpkt harmed
  . intro hfind'
    cases hfind.symm.trans hfind'
    exact silent rfl rfl

theorem rtpRetransTimer_other {tmp : Nbr} (i : Nat) (hne : tmp.ptr ≠ nbr.ptr)
    : (s.rtpRetransTimer tmp i).1.find nbr.ptr = s.find nbr.ptr ∧ Unicast tmp (s.rtpRetransTimer tmp i).2 := by
  unfold rtpRetransTimer
  split
  . exact ⟨rfl, Unicast.nil tmp⟩
  dsimp only
  split
  . split
    . exact ⟨find_nbrDel_other hne, Unicast.nil tmp⟩
    . exact ⟨find_put_other hne, sendPacket_unicast s.up tmp 0 _⟩
  . exact ⟨rfl, Unicast.nil tmp⟩

theorem rtpSendMcast_peer (hfind : s.find nbr.ptr = some nbr)
    (hfind' : (s.rtpSendMcast ei (s.buf ei.eigrp msg)).1.find nbr.ptr = some nbr')
    : PeerStep s nbr (.sendMcast ei msg) nbr' (s.rtpSendMcast ei (s.buf ei.eigrp msg)).2 := by
  by_cases htotal : s.total ei = 0
  . unfold rtpSendMcast at hfind' ⊢
    rw [if_pos htotal] at hfind' ⊢
    cases hfind.symm.trans hfind'
    apply silent _ rfl
    exact if_neg fun h => h.2 htotal
  rw [rtpSendMcast_find _ htotal, hfind, Option.map_some] at hfind'
  cases hfind'
  rw [rtpSendMcast_out _ htotal]
  unfold rtpSendMcast.append
  split
  . next hei =>
    subst hei
    exact mcast htotal rfl
  rename_i hei
  apply silent
  . exact if_neg fun h => hei h.1.symm
  unfold arriving
  rw [map_eq_nil_iff, filter_eq_nil_iff]
  intro x hx
  rcases send_multicast hx with ⟨hxei, hxnbr, _⟩
  simp [hxei, hxnbr, Ne.symm hei]

theorem step_peer {r : Eigrpe × List Sent} (hfind : s.find nbr.ptr = some nbr)
    (hfrom : event.isFrom nbr.ptr = false) (hstep : s.step event = some r) (hfind' : r.1.find nbr.ptr = some nbr')
    : PeerStep s nbr event nbr' r.2 := by
  cases event with
  | nbrNew ei addr self missed =>
    rcases Option.map_eq_some_iff.mp hstep with ⟨s', hnew, rfl⟩
    cases (find_nbrNew hnew hfind).symm.trans hfind'
    exact PeerStep.silent rfl rfl
  | nbrDel ptr =>
    cases hstep
    apply PeerStep.withNbr hfind _ _ _ hfind'
    . exact fun _ => rfl
    . intro _ hdel
      rw [find_nbrDel_self rfl] at hdel
      contradiction
    . intro tmp hne
      exact ⟨find_nbrDel_other hne, Unicast.nil tmp⟩
  | ifUpdate ei up =>
    cases hstep
    cases hfind.symm.trans hfind'
    exact PeerStep.silent rfl rfl
  | sendUcast ptr msg =>
    cases hstep
    apply PeerStep.withNbr hfind _ _ _ hfind'
    . intro hne
      exact if_neg hne
    . rintro rfl
      exact rtpSendUcast_peer hfind
    intro tmp hne
    refine ⟨?_, (rtpEnqueuePacket_unicast s.up tmp _).2⟩
    exact find_put_other fun h => hne ((rtpEnqueuePacket_same s.up tmp _).1.symm.trans h)
  | sendMcast ei msg =>
    cases hstep
    exact rtpSendMcast_peer hfind hfind'
  | sendHello ei =>
    cases hstep
    cases hfind.symm.trans hfind'
    apply PeerStep.quiet rfl
    . exact sendPacket_unreliable s.up rfl none nbr
    intro buf hbuf
    rcases arriving_mem hbuf with ⟨x, hx, rfl⟩
    exact Or.inl (sendPacket_mem s.up hx).2.2.2
  | recv ptr self buf =>
    cases hstep
    apply PeerStep.withNbr hfind _ _ _ hfind'
    . exact fun _ => rfl
    . rintro rfl
      simp [Event.isFrom] at hfrom
    intro tmp hne
    refine ⟨?_, recvPacketNbr_unicast s.up self tmp buf⟩
    exact find_put_other fun h => hne ((recvPacketNbr_same s.up self tmp buf).1.symm.trans h)
  | retransTimer ptr i =>
    cases hstep
    apply PeerStep.withNbr hfind _ _ _ hfind'
    . exact fun _ => rfl
    . rintro rfl
      exact rtpRetransTimer_peer hfind
    . intro tmp hne
      exact rtpRetransTimer_other i hne
  | ackTimer ptr =>
    cases hstep
    apply PeerStep.withNbr hfind _ _ _ hfind'
    . exact fun _ => rfl
    . intro _ hsame
      cases hfind.symm.trans hsame
      apply PeerStep.quiet rfl
      . exact sendPacket_unreliable s.up rfl _ nbr
      . intro buf hbuf
        exact Or.inr ((rtpSendAck_unicast s.up nbr).ackNum hbuf)
    . intro tmp hne
      exact ⟨rfl, rtpSendAck_unicast s.up tmp⟩

theorem PeerStep.ackNum (h : PeerStep s nbr event nbr' out)
    : nbr'.recvSeq = nbr.recvSeq
      ∧ ∀ buf ∈ arriving nbr out, buf.ackNum = 0 ∨ buf.ackNum = nbr.recvSeq := by
  cases h with
  | quiet _ _ hack => exact ⟨rfl, hack⟩
  | ucast _ =>
    refine ⟨(rtpEnqueuePacket_unicast s.up nbr _).1, ?_⟩
    intro buf hbuf
    exact Or.inr ((rtpEnqueuePacket_unicast s.up nbr _).2.ackNum hbuf)
  | mcast _ _ =>
    refine ⟨rfl, ?_⟩
    intro buf hbuf
    rcases arriving_mem hbuf with ⟨x, hx, rfl⟩
    rcases (send_multicast hx).2.2 with hack | hack
    . exact Or.inl hack
    . exact Or.inl (hack.trans (buf_ackNum _ _))
  | timer _ _ =>
    refine ⟨rfl, ?_⟩
    intro buf hbuf
    exact Or.inr ((sendPacket_unicast s.up nbr 0 _).ackNum hbuf)

theorem retransList_of_pending (hmem : nbr ∈ s.nbrs) (hself : nbr.self = false) (hpending : s.pending nbr.ei = 0)
    : nbr.retransList = [] := by
  unfold pending at hpending
  rw [countP_eq_zero] at hpending
  simpa [hself] using hpending nbr (mem_nbrList.mpr ⟨hmem, rfl⟩)

theorem send_unconditional (buf : Ibuf) (hq : nbr.Queue bufs) (hmem : nbr ∈ s.nbrs)
    (hself : nbr.self = false) (hpending : s.pending nbr.ei = 0 ∨ s.pending nbr.ei = s.total nbr.ei)
    : (rtpSendMcast.send s nbr.ei buf).1.withoutAck = buf.withoutAck
      ∧ (rtpSendMcast.send s nbr.ei buf).1.seqNum = buf.seqNum
      ∧ (copies nbr (rtpSendMcast.send s nbr.ei buf).2 = []
        ∨ copies nbr (rtpSendMcast.send s nbr.ei buf).2 = (bufs ++ [buf.withoutAck]).head?.toList) := by
  unfold rtpSendMcast.send
  split
  . have hzero : s.pending nbr.ei = 0 := by omega
    have hbufs : bufs = [] := by
      rw [← hq.bufs_eq, retransList_of_pending hmem hself hzero, map_nil]
    rw [if_neg (by omega), hbufs]
    have hbuf := sendPacket_withoutAck s.up nbr.ei none buf
    exact ⟨hbuf.1, hbuf.2, sendPacket_copies s.up nbr nbr.ei none buf⟩
  . exact ⟨rfl, rfl, Or.inl rfl⟩

theorem PeerStep.queue (h : PeerStep s nbr event nbr' out) (hq : nbr.Queue bufs) (hmem : nbr ∈ s.nbrs)
    (hself : nbr.self = false) (hpending : Link.Unconditional s nbr event)
    : nbr'.self = false
      ∧ nbr'.Queue (bufs ++ s.addressed nbr event)
      ∧ (copies nbr out = [] ∨ copies nbr out = (bufs ++ s.addressed nbr event).head?.toList) := by
  cases h with
  | quiet haddressed hunreliable _ =>
    rw [haddressed, append_nil]
    exact ⟨hself, hq, Or.inl (copies_unreliable hunreliable)⟩
  | ucast hpkt =>
    rename_i msg pkt
    have haddressed : s.addressed nbr (.sendUcast nbr.ptr msg) = [pkt.buf.withoutAck] := by
      rw [hpkt]
      exact if_pos rfl
    rw [haddressed]
    refine ⟨?_, ?_⟩
    . rw [(rtpEnqueuePacket_same s.up nbr pkt).2.2.2]
      exact hself
    apply rtpEnqueuePacket_queue s.up hq
    . rw [hpkt]
      rfl
    . rw [hpkt]
      rfl
  | mcast htotal hpkt =>
    rename_i msg pkt
    rcases send_unconditional (s.buf nbr.ei.eigrp msg) hq hmem hself (hpending rfl) with ⟨hbuf, hseq, hcopies⟩
    have haddressed : s.addressed nbr (.sendMcast nbr.ei msg) = [(s.buf nbr.ei.eigrp msg).withoutAck] :=
      if_pos ⟨rfl, htotal⟩
    rw [haddressed]
    refine ⟨hself, ?_, hcopies⟩
    have hpktBuf : pkt.buf.withoutAck = (s.buf nbr.ei.eigrp msg).withoutAck := by
      rw [hpkt]
      exact hbuf
    rw [← hpktBuf]
    apply hq.append
    . rw [hpkt]
      exact hseq.symm
    intro _
    rw [hpkt]
    rfl
  | timer hpkt harmed =>
    rename_i i attempts pkt
    rw [show s.addressed nbr (.retransTimer nbr.ptr i) = [] from rfl, append_nil]
    have hbufs := hq.bufs_eq
    have hseqNum := hq.seqNum_eq
    have hunarmed := hq.unarmed
    cases hlist : nbr.retransList with
    | nil =>
      rw [hlist] at hpkt
      contradiction
    | cons head rest =>
      rw [hlist] at hpkt hbufs hseqNum hunarmed
      cases i with
      | succ i =>
        rw [getElem?_cons_succ] at hpkt
        have hfalse := hunarmed pkt (mem_of_getElem? hpkt)
        rw [harmed] at hfalse
        contradiction
      | zero =>
        rw [getElem?_cons_zero] at hpkt
        cases hpkt
        have hbuf := rtpSendPacket_buf s.up nbr { pkt with attempts }
        rw [← hbufs, map_cons, set_cons_zero]
        refine ⟨hself, ⟨?_, ?_, hunarmed⟩, rtpSendPacket_copies s.up nbr nbr _⟩
        . rw [map_cons, hbuf.1]
        . rw [forall_mem_cons] at hseqNum ⊢
          exact ⟨hseqNum.1.trans hbuf.2.symm, hseqNum.2⟩

end Eigrpe

end Eigrpd
