import OpenBSDCiv.Eigrpd.Lemmas.Lookup
import OpenBSDCiv.Eigrpd.Lemmas.Progress

/-!
What holds of the topology whatever neighbors send and whichever timers expire.
-/

namespace Eigrpd

structure Sound (s : Rde) : Prop where
  keys : DistinctKeys s
  routes : ∀ rn ∈ s.topology, NodeRefs (fun _ => True) rn
  replies : ∀ rn ∈ s.topology, Waits s.nbrs rn

def Event.Concerns (s : Rde) (k : RtKey) : Event → Prop
  | .neighborUp .. | .recvUpdateInit .. => False
  | .recvUpdate peerid ri | .recvQuery peerid ri _ | .recvReply peerid ri _ =>
    ∃ x ∈ sender s peerid, ri.key x.1 = k
  | .redistribute eigrp ri => ri.key eigrp = k
  | .neighborDown .. | .ifDown .. | .activeTimer .. | .siaTimer .. => True

theorem aboutPrefix_other {s : Rde} {k : RtKey} {ri : Rinfo} {sender : Option (Eigrp × RdeNbr)}
    {handle : Eigrp → RdeNbr → Option RtNode → Option RtNode × List Out}
    (h : ¬∃ x ∈ sender, ri.key x.1 = k)
    : aboutPrefix s k ri sender handle = (s.find k, []) := by
  unfold aboutPrefix
  split
  . rfl
  . exact if_neg fun hkey => h ⟨_, rfl, hkey⟩

theorem nodeStep_other (conf : Conf) {s : Rde} {k : RtKey} {event : Event} (h : ¬event.Concerns s k)
    : nodeStep conf s k event = (s.find k, []) := by
  cases event with
  | neighborUp | recvUpdateInit => rfl
  | recvUpdate | recvQuery | recvReply => exact aboutPrefix_other h
  | redistribute eigrp ri => exact if_neg h
  | neighborDown | ifDown | activeTimer | siaTimer => exact absurd trivial h

end Eigrpd
