import OpenBSDCiv.Eigrpd.Impl.Rtp

namespace Eigrpd

open List

section

variable (up : EigrpIface → Bool) (nbr : Nbr)

theorem rtpSendPacket_evTimeout (pkt : Packet)
    : (rtpSendPacket up nbr pkt).1.evTimeout = true := rfl

theorem rtpSendPacket_seqNum (pkt : Packet)
    : (rtpSendPacket up nbr pkt).1.seqNum = pkt.seqNum := rfl

theorem recvPacketNbr_cases (self : EigrpdAddr) (nbr : Nbr) (buf : Ibuf)
    : ∃ crMode nextMcastSeq,
      recvPacketNbr up self nbr buf = recvPacketNbr.ackSeq up { nbr with crMode, nextMcastSeq } buf
      ∨ buf.flags &&& eigrpHdrFlagCr ≠ 0
        ∧ recvPacketNbr up self nbr buf = ({ nbr with crMode, nextMcastSeq }, [], false) := by
  have hseqTlv : ∃ crMode nextMcastSeq,
      recvPacketNbr.seqTlv self nbr buf = { nbr with crMode, nextMcastSeq } := by
    unfold recvPacketNbr.seqTlv
    split
    . exact ⟨_, _, rfl⟩
    . exact ⟨nbr.crMode, nbr.nextMcastSeq, rfl⟩
  rcases hseqTlv with ⟨crMode, nextMcastSeq, hseqTlv⟩
  unfold recvPacketNbr
  rw [hseqTlv]
  dsimp only
  split
  . next hcr =>
    split
    . refine ⟨false, nextMcastSeq, ?_⟩
      split
      . exact Or.inr ⟨hcr, rfl⟩
      . exact Or.inl rfl
    . exact ⟨crMode, nextMcastSeq, Or.inr ⟨hcr, rfl⟩⟩
  . exact ⟨crMode, nextMcastSeq, Or.inl rfl⟩

theorem recvPacketNbr_induction {motive : Nbr → Prop} {self : EigrpdAddr} {nbr : Nbr} {buf : Ibuf}
    (cr : ∀ crMode nextMcastSeq, motive { nbr with crMode, nextMcastSeq })
    (ack : ∀ nbr, motive nbr → motive (rtpProcessAck up nbr buf.ackNum).1)
    (seq : ∀ nbr, motive nbr → motive { nbr with recvSeq := buf.seqNum })
    : motive (recvPacketNbr up self nbr buf).1 := by
  rcases recvPacketNbr_cases up self nbr buf with ⟨crMode, nextMcastSeq, h | ⟨_, h⟩⟩
  . rw [h]
    unfold recvPacketNbr.ackSeq
    generalize hnbr : { nbr with crMode, nextMcastSeq } = nbr'
    have hcr : motive nbr' := hnbr ▸ cr crMode nextMcastSeq
    have hacked : motive (if buf.ackNum ≠ 0 then rtpProcessAck up nbr' buf.ackNum else (nbr', [])).1 := by
      split
      . apply ack
        exact hcr
      . exact hcr
    generalize (if buf.ackNum ≠ 0 then rtpProcessAck up nbr' buf.ackNum else (nbr', [])) = r at hacked ⊢
    dsimp only
    split
    . split
      . exact hacked
      . apply seq
        exact hacked
    . exact hacked
  . rw [h]
    exact cr crMode nextMcastSeq

def Nbr.Same (nbr nbr' : Nbr) : Prop :=
  nbr'.ptr = nbr.ptr ∧ nbr'.ei = nbr.ei ∧ nbr'.addr = nbr.addr ∧ nbr'.self = nbr.self

theorem rtpEnqueuePacket_same (pkt : Packet) : nbr.Same (rtpEnqueuePacket up nbr pkt).1 := by
  unfold rtpEnqueuePacket
  split
  . exact ⟨rfl, rfl, rfl, rfl⟩
  . exact ⟨rfl, rfl, rfl, rfl⟩

theorem rtpProcessAck_same (ackNum : UInt32) : nbr.Same (rtpProcessAck up nbr ackNum).1 := by
  unfold rtpProcessAck
  split
  . exact ⟨rfl, rfl, rfl, rfl⟩
  split
  . split
    . exact ⟨rfl, rfl, rfl, rfl⟩
    . exact ⟨rfl, rfl, rfl, rfl⟩
  . exact ⟨rfl, rfl, rfl, rfl⟩

theorem recvPacketNbr_same (self : EigrpdAddr) (nbr : Nbr) (buf : Ibuf)
    : nbr.Same (recvPacketNbr up self nbr buf).1 := by
  apply recvPacketNbr_induction
  . intro crMode nextMcastSeq
    exact ⟨rfl, rfl, rfl, rfl⟩
  . intro nbr' h
    rcases rtpProcessAck_same up nbr' buf.ackNum with ⟨hptr, hei, haddr, hself⟩
    exact ⟨hptr.trans h.1, hei.trans h.2.1, haddr.trans h.2.2.1, hself.trans h.2.2.2⟩
  . intro nbr' h
    exact h

end

namespace Eigrpe

variable {s : Eigrpe} {ptr : Nat} {nbr nbr' : Nbr} {ei : EigrpIface}

section

variable (h : s.find ptr = some nbr)
include h

theorem find_some : nbr ∈ s.nbrs ∧ nbr.ptr = ptr :=
  ⟨mem_of_find?_eq_some h, by simpa using find?_some h⟩

theorem find_ptr : nbr.ptr = ptr :=
  (find_some h).2

theorem find_put_self (hptr : nbr'.ptr = ptr) : (s.put nbr').find ptr = some nbr' := by
  unfold find put at *
  rw [find?_map]
  have hcomp : (fun tmp : Nbr => decide (tmp.ptr = ptr))
      ∘ (fun tmp => if tmp.ptr = nbr'.ptr then nbr' else tmp) = fun tmp => decide (tmp.ptr = ptr) := by
    funext tmp
    simp only [Function.comp_apply, hptr]
    split
    . next heq => simp only [hptr, heq]
    . rfl
  rw [hcomp, h, Option.map_some, hptr, if_pos (by simpa using find?_some h)]

end

theorem find_recv (self : EigrpdAddr) (buf : Ibuf) (h : s.find ptr = some nbr)
    : (s.recv nbr self buf).1.find ptr = some (recvPacketNbr s.up self nbr buf).1 :=
  find_put_self h ((recvPacketNbr_same s.up self nbr buf).1.trans (find_ptr h))

theorem find_put_other (hptr : nbr'.ptr ≠ ptr) : (s.put nbr').find ptr = s.find ptr := by
  unfold find put
  induction s.nbrs with
  | nil => rfl
  | cons tmp nbrs ih =>
    rw [map_cons, find?_cons, find?_cons, ih]
    by_cases heq : tmp.ptr = nbr'.ptr
    . rw [if_pos heq, decide_eq_false hptr, decide_eq_false (heq ▸ hptr)]
    . rw [if_neg heq]

theorem find_nbrDel_other (hptr : nbr.ptr ≠ ptr) : (s.nbrDel nbr).find ptr = s.find ptr := by
  unfold find nbrDel
  induction s.nbrs with
  | nil => rfl
  | cons tmp nbrs ih =>
    rw [filter_cons]
    split
    . rw [find?_cons, find?_cons, ih]
    rename_i heq
    have htmp : tmp.ptr = nbr.ptr := by simpa using heq
    rw [ih, find?_cons, decide_eq_false (htmp ▸ hptr)]

theorem find_nbrDel_self (hptr : nbr.ptr = ptr) : (s.nbrDel nbr).find ptr = none := by
  unfold find nbrDel
  rw [find?_eq_none]
  intro tmp htmp
  rw [mem_filter] at htmp
  simpa [← hptr] using htmp.2

theorem find_nbrNew {s' : Eigrpe} {addr : EigrpdAddr} {self missed : Bool}
    (hnew : s.nbrNew ei addr self missed = some s') (h : s.find ptr = some nbr)
    : s'.find ptr = some nbr := by
  unfold nbrNew at hnew
  dsimp only at hnew
  split at hnew
  . contradiction
  cases hnew
  unfold find at *
  rw [find?_append, h]
  rfl

theorem mem_put {tmp : Nbr} (h : tmp ∈ (s.put nbr).nbrs) : tmp = nbr ∨ tmp ∈ s.nbrs := by
  rcases mem_map.mp h with ⟨tmp', hmem, rfl⟩
  split
  . exact Or.inl rfl
  . exact Or.inr hmem

theorem put_mem (hmem : nbr ∈ s.nbrs) (hptr : nbr'.ptr = nbr.ptr) : nbr' ∈ (s.put nbr').nbrs := by
  apply mem_map.mpr
  refine ⟨nbr, hmem, ?_⟩
  rw [if_pos hptr.symm]

theorem mem_nbrList : nbr ∈ s.nbrList ei ↔ nbr ∈ s.nbrs ∧ nbr.ei = ei := by
  unfold nbrList
  rw [mem_filter]
  simp only [decide_eq_true_eq]

theorem append_ptr (ei : EigrpIface) (pkt : Packet) (nbr : Nbr)
    : (rtpSendMcast.append ei pkt nbr).ptr = nbr.ptr := by
  unfold rtpSendMcast.append
  split
  . rfl
  . rfl

section

variable (buf : Ibuf) (htotal : s.total ei ≠ 0)
include buf htotal

theorem rtpSendMcast_nbrs
    : (s.rtpSendMcast ei buf).1.nbrs
      = s.nbrs.map
        (rtpSendMcast.append ei (rtpPacketNew (s.seqNum ei.eigrp) (rtpSendMcast.send s ei buf).1)) := by
  unfold rtpSendMcast
  rw [if_neg htotal]
  rfl

theorem rtpSendMcast_out : (s.rtpSendMcast ei buf).2 = (rtpSendMcast.send s ei buf).2 := by
  unfold rtpSendMcast
  rw [if_neg htotal]

theorem rtpSendMcast_find (ptr : Nat)
    : (s.rtpSendMcast ei buf).1.find ptr
      = (s.find ptr).map
        (rtpSendMcast.append ei (rtpPacketNew (s.seqNum ei.eigrp) (rtpSendMcast.send s ei buf).1)) := by
  unfold find
  rw [rtpSendMcast_nbrs buf htotal, find?_map]
  congr 2
  funext nbr
  rw [Function.comp_apply, append_ptr]

end

end Eigrpe

end Eigrpd
