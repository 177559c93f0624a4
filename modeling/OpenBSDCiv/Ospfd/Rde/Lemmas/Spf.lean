import OpenBSDCiv.Ospfd.Rde.SpfTree

namespace Ospfd

open List

open ShortestPath

variable {now : Nat} {rtrId : UInt32} {area area' : Area}

variable {t : LsaTree} {key root : LsaKey} {v w : Vertex} {link : SpfLink} {d : Nat}

theorem LsaTree.find_some (h : t.find key = some v) : v ∈ t ∧ v.key = key := by
  refine ⟨mem_of_find?_eq_some h, ?_⟩
  simpa using List.find?_some h

theorem Vertex.aged_key (now : Nat) (v : Vertex) : (v.aged now).key = v.key := rfl

theorem lsaFindTree_some (h : lsaFindTree now t key = some w)
    : ∃ v ∈ t, v.key = key ∧ v.deleted = false ∧ w = v.aged now := by
  unfold lsaFindTree at h
  split at h
  . contradiction
  rename_i v hfind
  split at h
  . contradiction
  rename_i hdeleted
  cases h
  have ⟨hmem, hkey⟩ := LsaTree.find_some hfind
  exact ⟨v, hmem, hkey, by simpa using hdeleted, rfl⟩

theorem lsaFindNet_some {lsId : UInt32} (h : lsaFindNet now area lsId = some w)
    : ∃ v ∈ area.lsaTree, (v.lsa.hdr.type = lsaTypeNetwork ∧ v.lsa.hdr.lsId = lsId) ∧ v.deleted = false
        ∧ w = v.aged now := by
  unfold lsaFindNet at h
  split at h
  . contradiction
  rename_i v hfind
  split at h
  . contradiction
  rename_i hdeleted
  cases h
  refine ⟨v, mem_of_find?_eq_some hfind, ?_, by simpa using hdeleted, rfl⟩
  simpa using List.find?_some hfind

theorem linkEnd_some (h : linkEnd now area link = .ok (some w))
    : ∃ v ∈ area.lsaTree, v.deleted = false ∧ w = v.aged now := by
  have hfind : ∀ {key}, lsaFindTree now area.lsaTree key = some w →
      ∃ v ∈ area.lsaTree, v.deleted = false ∧ w = v.aged now := by
    intro key h
    obtain ⟨v, hmem, _, hdeleted, heq⟩ := lsaFindTree_some h
    exact ⟨v, hmem, hdeleted, heq⟩
  cases link with
  | rtr link =>
    rw [linkEnd] at h
    split at h
    . cases h
    split at h
    . exact hfind (Except.ok.inj h)
    split at h
    . obtain ⟨v, hmem, _, hdeleted, heq⟩ := lsaFindNet_some (Except.ok.inj h)
      exact ⟨v, hmem, hdeleted, heq⟩
    . contradiction
  | net attRtr => exact hfind (Except.ok.inj h)
  | invalid => contradiction

theorem spfFollow_some {w : LsaKey} (h : spfFollow now area key link = .ok (some (w, d)))
    : ∃ a b, area.lsaTree.find key = some a ∧ linkEnd now area link = .ok (some b)
        ∧ rawAge b.lsa.hdr.age ≠ maxAge ∧ linked b a = .ok true ∧ b.key = w ∧ linkMetric link = d := by
  unfold spfFollow at h
  split at h
  . cases h
  rename_i a hfind
  rcases Outcome.bind_eq_ok h with ⟨b?, hend, h⟩
  cases b? with
  | none => cases h
  | some b =>
    dsimp only at h
    split at h
    . cases h
    rename_i hage
    rcases Outcome.bind_eq_ok h with ⟨back, hlinked, h⟩
    cases back with
    | false => cases h
    | true =>
      cases h
      exact ⟨a, b, hfind, hend, by simpa using hage, hlinked, rfl, rfl⟩

theorem spfNetwork_verts {v w : LsaKey} (h : (spfNetwork now area root).follow v link = .ok (some (w, d)))
    : w ∈ area.lsaTree.map Vertex.key := by
  have ⟨_, b, _, hend, _, _, hkey, _⟩ := spfFollow_some h
  have ⟨v, hmem, _, heq⟩ := linkEnd_some hend
  rw [← hkey, heq, Vertex.aged_key]
  exact mem_map_of_mem hmem

theorem spfNetwork_edge {v w : LsaKey}
    : (spfNetwork now area root).Edge v w d ↔ WalkedEdge now area v w d := by
  constructor
  . rintro ⟨link, hlink, hfollow⟩
    have ⟨a, _, hfind, _⟩ := spfFollow_some hfollow
    refine ⟨a, hfind, link, ?_, hfollow⟩
    simpa [spfNetwork, hfind] using hlink
  rintro ⟨a, hfind, link, hlink, hfollow⟩
  refine ⟨link, ?_, hfollow⟩
  simpa [spfNetwork, hfind] using hlink

theorem spfCalc_isDist {found : Bool} (h : spfCalc now rtrId area = .ok (area', found))
    : ∃ cost nexthop, area' = area.setSpf cost nexthop
        ∧ ∀ v, IsDist (WalkedEdge now area) (WalkedRoot now rtrId area) lsInfinity v (cost v) := by
  unfold spfCalc at h
  split at h
  . next hroot =>
    cases h
    refine ⟨_, _, rfl, ?_⟩
    intro v
    refine ⟨Nat.le_refl _, fun hlt => absurd hlt (Nat.lt_irrefl _), ?_⟩
    intro n hreaches
    -- without a root there is no path
    induction hreaches with
    | source hsource =>
      have := hsource.2
      rw [hroot] at this
      cases this
    | step _ _ ih => omega
  rename_i root hroot
  rcases Outcome.bind_eq_ok h with ⟨spf, hsearch, h⟩
  cases h
  refine ⟨_, _, rfl, ?_⟩
  intro v
  have hlen : area.lsaTree.length = (area.lsaTree.map Vertex.key).length := by
    rw [length_map]
  rw [hlen] at hsearch
  have hinf : 0 < lsInfinity := by decide
  have hdist := search_start_isDist (g := spfNetwork now area (rootKey rtrId)) hinf
    (fun v link _ w d hfollow => spfNetwork_verts hfollow) hsearch v
  have hedge : (spfNetwork now area (rootKey rtrId)).Edge = WalkedEdge now area := by
    funext v w d
    exact propext spfNetwork_edge
  have hsource : (· = rootKey rtrId) = WalkedRoot now rtrId area := by
    funext v
    simp [WalkedRoot, hroot]
  rw [hedge, hsource] at hdist
  exact hdist

theorem rawAge_rawAge (age : UInt16) : rawAge (rawAge age) = age := by
  apply UInt16.eq_of_toBitVec_eq
  apply BitVec.eq_of_getLsbD_eq
  intro i hi
  have hhigh : ∀ j, 16 ≤ j → age.toBitVec.getLsbD j = false := fun j hj => BitVec.getLsbD_of_ge _ _ hj
  by_cases hlt : i < 8
  . have h1 : 8 + i < 16 := by omega
    have h2 : ¬8 + i < 8 := by omega
    simp [rawAge, hlt, h1, h2, hhigh (8 + (8 + i)) (by omega), BitVec.getLsbD_eq_getElem hi]
  have h1 : ¬8 + i < 16 := by omega
  have h2 : 8 + (i - 8) = i := by omega
  have h3 : i - 8 < 8 := by omega
  simp [rawAge, hlt, hi, h1, h2, h3, hhigh (8 + (8 + i)) (by omega)]

theorem rawAge_ne_maxAge {age : UInt16} (h : age ≤ maxAge) : rawAge age ≠ maxAge := by
  intro heq
  have hinv := rawAge_rawAge age
  rw [heq] at hinv
  subst hinv
  revert h
  decide

theorem Vertex.aged_age_le (now : Nat) (v : Vertex) : (v.aged now).lsa.hdr.age ≤ maxAge := by
  unfold Vertex.aged Lsa.setAge
  dsimp only
  split
  . exact UInt16.le_refl _
  rename_i hle
  rw [UInt16.le_iff_toNat_le]
  simp only [Nat.toUInt16_eq, UInt16.toNat_ofNat']
  have := Nat.mod_le (v.lsa.hdr.age.toNat + (now - v.stamp)) (2 ^ 16)
  omega

structure AllCurrent (now : Nat) (area : Area) : Prop where
  keys : (area.lsaTree.map Vertex.key).Nodup
  current : ∀ v ∈ area.lsaTree, Current now v
  nets : ∀ v ∈ area.lsaTree, ∀ w ∈ area.lsaTree, v.lsa.hdr.type = lsaTypeNetwork → w.lsa.hdr.type = lsaTypeNetwork →
    v.lsa.hdr.lsId = w.lsa.hdr.lsId → v = w
  virtual : ∀ v ∈ area.lsaTree, v.lsa.hdr.type = lsaTypeRouter → ∀ link ∈ v.lsa.rtrLinks, link.type ≠ linkTypeVirtual

section

variable (h : AllCurrent now area) (hv : v ∈ area.lsaTree)
include h hv

theorem AllCurrent.find : area.lsaTree.find v.key = some v := by
  unfold LsaTree.find
  have hsome : (area.lsaTree.find? fun u => u.key = v.key).isSome := by
    rw [List.find?_isSome]
    exact ⟨v, hv, by simp⟩
  rcases Option.isSome_iff_exists.mp hsome with ⟨u, hu⟩
  have ⟨hmem, hkey⟩ := LsaTree.find_some hu
  rw [hu]
  rw [inj_on_of_nodup_map h.keys hmem hv hkey]

theorem AllCurrent.findTree : lsaFindTree now area.lsaTree v.key = some (v.aged now) := by
  unfold lsaFindTree
  rw [h.find hv]
  simp [(h.current v hv).1]

theorem AllCurrent.findNet (hnet : v.lsa.hdr.type = lsaTypeNetwork)
    : lsaFindNet now area v.lsa.hdr.lsId = some (v.aged now) := by
  unfold lsaFindNet
  have hsome : (area.lsaTree.find? fun u => u.lsa.hdr.type = lsaTypeNetwork ∧ u.lsa.hdr.lsId = v.lsa.hdr.lsId).isSome := by
    rw [List.find?_isSome]
    exact ⟨v, hv, by simp [hnet]⟩
  rcases Option.isSome_iff_exists.mp hsome with ⟨u, hu⟩
  have hmem := mem_of_find?_eq_some hu
  have hprop := List.find?_some hu
  simp only [decide_eq_true_eq] at hprop
  rw [hu]
  rw [h.nets u hmem v hv hprop.1 hnet hprop.2]
  simp [(h.current v hv).1]

end

theorem AllCurrent.linkEnd (h : AllCurrent now area) (hw : w ∈ area.lsaTree) (hnames : Names w link)
    : Ospfd.linkEnd now area link = .ok (some (w.aged now)) := by
  have hfind := h.findTree hw
  cases link with
  | rtr link =>
    rw [Ospfd.linkEnd]
    cases hnames with
    | inl hp2p =>
      rw [hp2p.2] at hfind
      simp [hp2p.1, linkTypePointtopoint, linkTypeStubNet, lsaFindArea, rootKey] at hfind ⊢
      exact hfind
    | inr hnet =>
      rw [← hnet.2.2]
      have := h.findNet hw hnet.2.1
      simp [hnet.1, linkTypePointtopoint, linkTypeStubNet, linkTypeVirtual, linkTypeTransitNet, this]
  | net attRtr =>
    rw [hnames] at hfind
    rw [Ospfd.linkEnd]
    exact congrArg Except.ok hfind
  | invalid => contradiction

theorem rtr_mem_lsaLinks {link : RtrLink} (h : SpfLink.rtr link ∈ lsaLinks v)
    : v.lsa.hdr.type = lsaTypeRouter ∧ link ∈ v.lsa.rtrLinks := by
  unfold lsaLinks at h
  split at h
  . next htype =>
    simp only [mem_map, SpfLink.rtr.injEq, exists_eq_right] at h
    exact ⟨by simpa using htype, h⟩
  . split at h <;> simp at h

theorem AllCurrent.names (h : AllCurrent now area) (hv : v ∈ area.lsaTree)
    (hlink : link ∈ lsaLinks v) (hend : Ospfd.linkEnd now area link = .ok (some w))
    : ∃ b ∈ area.lsaTree, w = b.aged now ∧ Names b link := by
  cases link with
  | rtr link =>
    obtain ⟨htype, hmem⟩ := rtr_mem_lsaLinks hlink
    have hvirtual := h.virtual v hv htype link hmem
    rw [Ospfd.linkEnd] at hend
    split at hend
    . cases hend
    split at hend
    . next htype =>
      obtain ⟨b, hmem, hkey, _, heq⟩ := lsaFindTree_some (Except.ok.inj hend)
      refine ⟨b, hmem, heq, Or.inl ⟨?_, hkey⟩⟩
      simpa [hvirtual] using htype
    split at hend
    . next htype =>
      obtain ⟨b, hmem, hnet, _, heq⟩ := lsaFindNet_some (Except.ok.inj hend)
      exact ⟨b, hmem, heq, Or.inr ⟨by simpa using htype, hnet⟩⟩
    . contradiction
  | net attRtr =>
    obtain ⟨b, hmem, hkey, _, heq⟩ := lsaFindTree_some (Except.ok.inj hend)
    exact ⟨b, hmem, heq, hkey⟩
  | invalid => contradiction

theorem Lsa.rtrLinksFrom_setAge (lsa : Lsa) (age : UInt16) (n off : Nat)
    : (lsa.setAge age).rtrLinksFrom n off = lsa.rtrLinksFrom n off := by
  induction n generalizing off with
  | zero => rfl
  | succ n ih =>
    unfold Lsa.rtrLinksFrom
    rw [ih]
    rfl

theorem linked_aged (now : Nat) (w v : Vertex) : linked (w.aged now) v = linked w v := by
  have hlinks : (w.aged now).lsa.rtrLinks = w.lsa.rtrLinks := Lsa.rtrLinksFrom_setAge ..
  unfold linked
  rw [hlinks]
  rfl

section

variable (h : AllCurrent now area)
include h

theorem AllCurrent.walkedEdge_iff (v w : LsaKey) (d : Nat)
    : WalkedEdge now area v w d ↔ CurrentEdge now area v w d := by
  constructor
  . rintro ⟨a, hfind, link, hlink, hfollow⟩
    have ⟨a', b, hfind', hend, _, hlinked, hkey, hmetric⟩ := spfFollow_some hfollow
    rw [hfind] at hfind'
    cases hfind'
    have ⟨ha, hakey⟩ := LsaTree.find_some hfind
    have ⟨b', hb, heq, hnames⟩ := h.names ha hlink hend
    subst heq
    rw [linked_aged] at hlinked
    exact ⟨a, ha, b', hb, hakey, hkey, h.current a ha, h.current b' hb, hlinked, link, hlink, hnames, hmetric⟩
  rintro ⟨a, ha, b, hb, rfl, rfl, _, _, hlinked, link, hlink, hnames, hmetric⟩
  refine ⟨a, h.find ha, link, hlink, ?_⟩
  unfold spfFollow
  rw [h.find ha]
  simp only [h.linkEnd hb hnames, Except.bind]
  rw [if_neg (by simpa using rawAge_ne_maxAge (Vertex.aged_age_le now b))]
  rw [linked_aged, hlinked, hmetric]
  rfl

theorem AllCurrent.walkedRoot_iff (v : LsaKey)
    : WalkedRoot now rtrId area v ↔ CurrentRoot now rtrId area v := by
  constructor
  . rintro ⟨rfl, hsome⟩
    rcases Option.isSome_iff_exists.mp hsome with ⟨w, hw⟩
    have ⟨a, ha, hkey, _, _⟩ := lsaFindTree_some hw
    exact ⟨rfl, a, ha, hkey, h.current a ha⟩
  rintro ⟨rfl, a, ha, hkey, _⟩
  refine ⟨rfl, ?_⟩
  have hfind := h.findTree ha
  rw [hkey] at hfind
  unfold lsaFindArea
  rw [show (⟨lsaTypeRouter, rtrId, rtrId⟩ : LsaKey) = rootKey rtrId from rfl, hfind]
  rfl

theorem AllCurrent.sameDistances : SameDistances now rtrId area := by
  have hedge : WalkedEdge now area = CurrentEdge now area := by
    funext v w d
    exact propext (h.walkedEdge_iff v w d)
  have hroot : WalkedRoot now rtrId area = CurrentRoot now rtrId area := by
    funext v
    exact propext (h.walkedRoot_iff v)
  intro v _ c
  rw [hedge, hroot]

end

theorem spfCalc_shortestPaths_iff (now : Nat) (rtrId : UInt32) (area area' : Area) (found : Bool)
    (h : spfCalc now rtrId area = .ok (area', found))
    : (ShortestPaths now rtrId area area' ↔ SameDistances now rtrId area)
      ∧ (AllCurrent now area → ShortestPaths now rtrId area area') := by
  have ⟨cost, nexthop, heq, hdist⟩ := spfCalc_isDist h
  subst heq
  have hshortest : SameDistances now rtrId area → ShortestPaths now rtrId area (area.setSpf cost nexthop) := by
    intro hsame v' hv'
    rw [Area.setSpf, mem_map] at hv'
    rcases hv' with ⟨v, hv, rfl⟩
    exact (hsame v hv (cost v.key)).mp (hdist v.key)
  refine ⟨⟨?_, hshortest⟩, fun hcurrent => hshortest hcurrent.sameDistances⟩
  intro hshortest v hv c
  have hclaimed := hshortest { v with cost := cost v.key, nexthop := nexthop v.key } (mem_map_of_mem hv)
  constructor
  . intro hc
    rw [hc.unique (hdist v.key)]
    exact hclaimed
  intro hc
  rw [hc.unique hclaimed]
  exact hdist v.key

def RtrLink.octets (link : RtrLink) : List UInt8 :=
  octets32 link.id ++ octets32 link.data ++ [link.type, link.numTos] ++ octets16 link.metric

def sampleRouter (id : UInt32) (age : UInt16) (links : List RtrLink) : Lsa :=
  let data := [0, 0] ++ octets16 links.length.toUInt16 ++ links.flatMap RtrLink.octets
  Lsa.setCksum {
    hdr := {
      age, type := lsaTypeRouter, lsId := id, advRtr := id, seqNum := initSeqNum,
      len := (20 + data.length).toUInt16 }
    data }

def sampleNetwork (lsId advRtr : UInt32) (age : UInt16) (mask : UInt32) (attRtr : List UInt32) : Lsa :=
  let data := octets32 mask ++ attRtr.flatMap octets32
  Lsa.setCksum {
    hdr := { age, type := lsaTypeNetwork, lsId, advRtr, seqNum := initSeqNum, len := (20 + data.length).toUInt16 }
    data }

def sampleVertex (lsa : Lsa) : Vertex where
  lsa := lsa
  area := some 0
  changed := 0
  stamp := 0

def sampleP2p (id : UInt32) : RtrLink where
  id := id
  data := 0x0a000001
  type := linkTypePointtopoint
  numTos := 0
  metric := 10

def sampleTransit (id : UInt32) : RtrLink where
  id := id
  data := 0x0a000001
  type := linkTypeTransitNet
  numTos := 0
  metric := 10

def sampleArea (lsaTree : LsaTree) : Area where
  id := 0
  lsaTree := lsaTree
  ifaceList := [{ addr := 0x0a000001, mask := 0xffffff00, ifindex := 1 }]
  nbrList := [{ peerid := 2, addr := 0x0a000002, ifindex := 1, self := false, state := .full }]

def sampleRow (age : UInt16) : Area :=
  sampleArea [
    sampleVertex (sampleRouter 1 1 [sampleP2p 2]),
    sampleVertex (sampleRouter 2 age [sampleP2p 1, sampleP2p 3]),
    sampleVertex (sampleRouter 3 1 [sampleP2p 2])]

def sampleNet : Area :=
  sampleArea [
    sampleVertex (sampleRouter 1 1 [sampleTransit 0x0a000003]),
    sampleVertex (sampleRouter 3 1 [sampleTransit 0x0a000003]),
    { sampleVertex (sampleNetwork 0x0a000003 2 1 0xffffff00 [1, 3]) with deleted := true },
    sampleVertex (sampleNetwork 0x0a000003 3 1 0xffffff00 [1, 3])]

def Accepted (area : Area) : Prop :=
  ∀ v ∈ area.lsaTree, lsaFormatCheck v.self area.stub (v.lsa.hdr.octets ++ v.lsa.data) = some v.lsa

instance (area : Area) : Decidable (Accepted area) := by
  unfold Accepted
  infer_instance

theorem sampleRow_shortestPaths
    : Accepted (sampleRow 1)
        ∧ ∃ area' found, spfCalc 0 1 (sampleRow 1) = .ok (area', found)
          ∧ area'.lsaTree.map Vertex.cost = [0, 10, 20] ∧ ShortestPaths 0 1 (sampleRow 1) area' := by
  refine ⟨by decide +kernel, _, _, rfl, by decide +kernel, ?_⟩
  apply (spfCalc_shortestPaths_iff 0 1 (sampleRow 1) _ true rfl).2
  exact ⟨by decide +kernel, by decide +kernel, by decide +kernel, by decide +kernel⟩

theorem sampleRow_reaches {v : LsaKey} {n : Nat}
    (h : Reaches (CurrentEdge 0 (sampleRow 3600)) (CurrentRoot 0 1 (sampleRow 3600)) v n)
    : v = rootKey 1 := by
  have hstay : ∀ a ∈ (sampleRow 3600).lsaTree, a.key = rootKey 1 → ∀ b ∈ (sampleRow 3600).lsaTree,
      Current 0 b → ∀ link ∈ lsaLinks a, ¬Names b link := by
    decide +kernel
  induction h with
  | source h => exact h.1
  | step _ hedge ih =>
    rcases hedge with ⟨a, ha, b, hb, hakey, _, _, hcurrent, _, link, hlink, hnames, _⟩
    rw [ih] at hakey
    exact absurd hnames (hstay a ha hakey b hb hcurrent link hlink)

theorem sampleNet_reaches
    : Reaches (CurrentEdge 0 sampleNet) (CurrentRoot 0 1 sampleNet) ⟨lsaTypeNetwork, 3, 0x0a000003⟩ 10 := by
  have hroot : CurrentRoot 0 1 sampleNet (rootKey 1) := by
    refine ⟨rfl, sampleVertex (sampleRouter 1 1 [sampleTransit 0x0a000003]), ?_, rfl, by decide +kernel⟩
    exact mem_cons_self
  have hedge : CurrentEdge 0 sampleNet (rootKey 1) ⟨lsaTypeNetwork, 3, 0x0a000003⟩ 10 := by
    refine ⟨sampleVertex (sampleRouter 1 1 [sampleTransit 0x0a000003]), mem_cons_self,
      sampleVertex (sampleNetwork 0x0a000003 3 1 0xffffff00 [1, 3]), by decide +kernel, rfl, rfl,
      by decide +kernel, by decide +kernel, rfl, .rtr (sampleTransit 0x0a000003), ?_, ?_, rfl⟩
    . exact mem_cons_self
    . exact Or.inr ⟨rfl, rfl, rfl⟩
  exact (Reaches.source hroot).step hedge

theorem spfCalc_not_shortestPaths
    : (Accepted (sampleRow 3600)
        ∧ ∃ area' found, spfCalc 0 1 (sampleRow 3600) = .ok (area', found) ∧ ¬ShortestPaths 0 1 (sampleRow 3600) area')
      ∧ Accepted sampleNet
        ∧ ∃ area' found, spfCalc 0 1 sampleNet = .ok (area', found) ∧ ¬ShortestPaths 0 1 sampleNet area' := by
  refine ⟨⟨by decide +kernel, _, _, rfl, ?_⟩, by decide +kernel, _, _, rfl, ?_⟩
  . intro h
    have hdist := h _ (mem_cons_of_mem _ (mem_cons_of_mem _ mem_cons_self))
    have hroot := sampleRow_reaches (hdist.reached (by decide +kernel))
    revert hroot
    decide +kernel
  intro h
  have hdist := h _ (mem_cons_of_mem _ (mem_cons_of_mem _ (mem_cons_of_mem _ mem_cons_self)))
  have hle := hdist.least 10 sampleNet_reaches
  revert hle
  decide +kernel

end Ospfd
