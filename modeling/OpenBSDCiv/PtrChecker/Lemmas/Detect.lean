import OpenBSDCiv.PtrChecker.Lemmas.Slots

namespace PtrChecker

open List Reachable

open Libutil

variable {δ : Type} [DecidableEq δ] {computeMd5 : List UInt8 → δ} {s : Sender δ}

def Detects (computeMd5 : List UInt8 → δ) (vm : Vm) (s : Sender δ) : Prop :=
  sendmsg true computeMd5 vm s.checker s.iov = none
    ∨ ∀ slot ∈ s.iovSlots, ∀ i, i + 8 ≤ slot.payload.length →
        Mapped vm.regions (Bytes.ofLE ((slot.payload.drop i).take 8)) →
        computeMd5 slot.payload ∉ s.checker.skipList →
        slot.lead + i + 7 < slot.handed

def Covered (computeMd5 : List UInt8 → δ) (vm : Vm) (s : Sender δ) : Prop :=
  ∀ slot ∈ s.iovSlots, slot.own = true → slot.handed = 0 → Leaks vm.regions slot.payload →
    computeMd5 slot.payload ∉ s.checker.skipList →
    Leaks vm.regions (slot.payload.drop 16)
      ∧ computeMd5 (slot.payload.drop 16) ∉ s.checker.skipList

theorem forall₂_mem_left {R : α → β → Prop} {xs : List α} {ys : List β} (h : List.Forall₂ R xs ys) {x : α} (hx : x ∈ xs)
    : ∃ y ∈ ys, R x y := by
  induction h with
  | nil => simp at hx
  | @cons x' y' xs ys hxy _ ih =>
    rcases mem_cons.mp hx with rfl | hx
    . exact ⟨y', mem_cons_self, hxy⟩
    . rcases ih hx with ⟨y, hy, hR⟩
      exact ⟨y, mem_cons_of_mem _ hy, hR⟩

theorem Holds.drop_eq {slot : Slot} {buf : Ibuf} (h : Holds slot buf)
    : (ibufData buf).drop 16 = slot.payload.drop (slot.cut + (16 - slot.lead)) := by
  rcases h.data_eq with ⟨hdr, hhdr, hdata⟩
  have hlead : slot.lead ≤ 16 := by
    unfold Slot.lead imsgHeaderSize
    split <;> omega
  rw [hdata, drop_drop, drop_append, drop_of_length_le (by omega), nil_append, hhdr]
  congr 1
  omega

theorem leaks_ne_nil {regions : List Region} {data : List UInt8} (h : Leaks regions data) : data ≠ [] := by
  rintro rfl
  have := h.length_le
  simp at this

section

def sampleRegion : Region :=
  { start := 0x1000, end_ := 0x2000 }

def sampleVm : Vm :=
  { regions := [sampleRegion], ret := 0 }

def samplePointer : List UInt8 :=
  [0, 16, 0, 0, 0, 0, 0, 0]

def sampleStart : Sender (List UInt8) where
  imsgbuf := imsgbufAllowFdpass (imsgbufInit 1)
  checker := { procVm := [], skipList := [] }
  slots := []

theorem sampleStart_reachable : Reachable id sampleStart :=
  init _ rfl rfl

def sampleComposedIbuf (payload : List UInt8) : Sender (List UInt8) :=
  sampleStart.queue (imsgComposeIbuf (fun _ => true) sampleStart.imsgbuf 3 0 0 (frameIbuf payload (-1)))
    [Slot.fresh [] false false, Slot.fresh (ibufData (frameIbuf payload (-1))) true false]

-- the payload has a pointer in the sixteen bytes that are not checked and one behind them
def sampleTwice : List UInt8 :=
  samplePointer ++ replicate 8 0 ++ samplePointer

end

theorem registered_payload_passes_iff (h : Reachable computeMd5 s) (vm : Vm) {slot : Slot}
    {iov : List UInt8} (hiov : (slot, iov) ∈ s.iovSlots.zip s.iov) (hreg : slot.registered = true)
    : checkIov true computeMd5 vm s.checker iov ≠ none
      ↔ slot.cut = 0
        ∨ slot.payload.drop slot.cut = []
        ∨ computeMd5 (slot.payload.drop slot.cut) ∈ s.checker.skipList
        ∨ 0 ≤ vm.ret ∧ ¬Leaks vm.regions (slot.payload.drop slot.cut) := by
  have hinv := reachable_inv h
  have hholds := holds_take hinv.holds
  have ⟨hown, hskip⟩ := hinv.registered slot (mem_of_mem_take (of_mem_zip hiov).1) hreg
  have hlead : slot.lead = 16 := by simp [Slot.lead, hown, imsgHeaderSize]
  have hdrop : iov.drop 16 = slot.payload.drop slot.cut := by
    rw [Sender.iov, zip_map_right] at hiov
    rcases mem_map.mp hiov with ⟨⟨slot', buf⟩, hmem, heq⟩
    obtain ⟨rfl, rfl⟩ := Prod.mk.inj heq
    have hslot := forall₂_zip hholds hmem
    rw [hslot.drop_eq]
    simp only [id_eq] at hlead
    rw [hlead]
    rfl
  have hcases := @checkIov_cases δ _ computeMd5 vm s.checker hinv.procVm_eq iov
  rw [hdrop] at hcases
  constructor
  . intro hpass
    rcases hcases with ⟨hnone, _⟩ | ⟨_, hquiet⟩
    . exact absurd hnone hpass
    by_contra hcond
    simp only [not_or, not_and, Classical.not_not] at hcond
    apply hquiet
    refine ⟨hcond.2.1, hcond.2.2.1, ?_⟩
    by_cases hret : vm.ret < 0
    . exact Or.inl hret
    . exact Or.inr (hcond.2.2.2 (Int.not_lt.mp hret))
  intro hcond
  rcases hcases with ⟨_, halarm⟩ | ⟨hsome, _⟩
  . exfalso
    rcases halarm with ⟨hne, hnot, hwhy⟩
    rcases hcond with hcut | hnil | hmem | ⟨hret, hquiet⟩
    . rw [hcut, drop_zero] at hnot
      exact hnot hskip
    . exact hne hnil
    . exact hnot hmem
    rcases hwhy with hfail | hleaks
    . omega
    . exact hquiet hleaks
  . rw [hsome]
    simp

section

def samplePayload : List UInt8 :=
  7 :: samplePointer

def sampleRegistered : Sender (List UInt8) :=
  { sampleStart with checker := ptrCheckSkip id true sampleStart.checker samplePayload }

def sampleQueued : Sender (List UInt8) :=
  sampleRegistered.queue
    (imsgCompose (fun _ => true) sampleRegistered.imsgbuf 3 0 0 (-1) samplePayload)
    [Slot.fresh samplePayload false (checkSkipList sampleRegistered.checker (id samplePayload))]

theorem sampleQueued_reachable : Reachable id sampleQueued := by
  apply compose
  apply skip
  exact sampleStart_reachable

theorem registered_payload_passes_iff_whole
    : checkIov true id sampleVm sampleQueued.checker (sampleQueued.iov.flatten) ≠ none := by
  apply (registered_payload_passes_iff sampleQueued_reachable sampleVm
    (show (Slot.fresh samplePayload false true, sampleQueued.iov.flatten)
      ∈ sampleQueued.iovSlots.zip sampleQueued.iov by decide) rfl).mpr
  exact Or.inl rfl

def sampleSplit : Sender (List UInt8) :=
  sampleQueued.write sampleQueued.checker (.bytes 1)

theorem registered_payload_alarms_after_partial_send
    : Reachable id sampleSplit
      ∧ samplePayload ∈ sampleSplit.checker.skipList
      ∧ (∃ slot ∈ sampleSplit.iovSlots, slot.registered = true ∧ slot.payload = samplePayload)
      ∧ sendmsg true id sampleVm sampleSplit.checker sampleSplit.iov = none := by
  refine ⟨?_, by decide, by decide, by decide⟩
  apply write sampleQueued_reachable sampleVm (.bytes 1)
  . decide
  . rintro n ⟨⟩
    decide
  . decide

end

theorem Transparent.length_lt {vm : Vm} {st : Checker δ} {mem : Nat → Bool} {imsgbuf : Imsgbuf} {type id pid : UInt32}
    {fd : Int} {data : List UInt8} (h : Transparent computeMd5 vm st mem imsgbuf type id pid fd data)
    : data.length < 2 ^ 16 := by
  have hlen := congrArg (·.1.length) h
  have hmod := Nat.mod_lt data.length (Nat.two_pow_pos 16)
  dsimp only [interposedCompose] at hlen
  rw [length_take] at hlen
  omega

theorem interposedCompose_transparent_iff (computeMd5 : List UInt8 → δ) (vm : Vm) (st : Checker δ) (mem : Nat → Bool)
    (imsgbuf : Imsgbuf) (type id pid : UInt32) (fd : Int) (data : List UInt8)
    : Transparent computeMd5 vm st mem imsgbuf type id pid fd data ↔ data.length < 2 ^ 16 := by
  constructor
  . exact Transparent.length_lt
  intro hlt
  unfold Transparent interposedCompose
  rw [Nat.mod_eq_of_lt hlt, take_length]

-- with a larger maximum the message could be sent, the interposer sends an empty one
theorem interposedCompose_not_transparent
    : ∃ imsgbuf, imsgbufSetMaxsize (imsgbufInit 1) 65536 = some imsgbuf
        ∧ ¬Transparent id sampleVm ⟨[], []⟩ (fun _ => true) imsgbuf 1 0 0 (-1) (replicate 65536 7) := by
  refine ⟨_, rfl, ?_⟩
  intro h
  have hlt := h.length_lt
  rw [length_replicate] at hlt
  exact absurd hlt (Nat.lt_irrefl _)

end PtrChecker
