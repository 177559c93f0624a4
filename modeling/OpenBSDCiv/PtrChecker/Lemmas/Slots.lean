import OpenBSDCiv.Lib.Machine
import OpenBSDCiv.Libutil.Lemmas.Push
import OpenBSDCiv.Libutil.Lemmas.Write
import OpenBSDCiv.PtrChecker.Sender

namespace PtrChecker

open List

def Mapped (regions : List Region) (value : Nat) : Prop :=
  ∃ region ∈ regions, region.contains value = true

def Leaks (regions : List Region) (data : List UInt8) : Prop :=
  ∃ i, i + 8 ≤ data.length ∧ Mapped regions (Bytes.ofLE ((data.drop i).take 8))

theorem findPointer_iff (regions : List Region) (data : List UInt8)
    : findPointer regions data = true ↔ Leaks regions data := by
  induction data with
  | nil =>
    simp only [findPointer, Bool.false_eq_true, false_iff]
    rintro ⟨i, hi, _⟩
    simp at hi
  | cons b bytes ih =>
    unfold findPointer
    split
    . next hlen =>
      simp only [length_cons] at hlen
      rw [Bool.or_eq_true, ih, any_eq_true]
      constructor
      . rintro (hhead | ⟨i, hi, hmapped⟩)
        . exact ⟨0, by simp only [length_cons]; omega, hhead⟩
        . exact ⟨i + 1, by simp only [length_cons]; omega, hmapped⟩
      rintro ⟨i, hi, hmapped⟩
      cases i with
      | zero => exact Or.inl hmapped
      | succ i =>
        apply Or.inr
        exact ⟨i, by simp only [length_cons] at hi; omega, hmapped⟩
    rename_i hlen
    simp only [length_cons] at hlen
    simp only [Bool.false_eq_true, false_iff]
    rintro ⟨i, hi, _⟩
    simp only [length_cons] at hi
    omega

theorem Leaks.length_le {regions : List Region} {data : List UInt8} (h : Leaks regions data)
    : 8 ≤ data.length := by
  rcases h with ⟨i, hi, _⟩
  omega

section

variable {δ : Type} [DecidableEq δ] {computeMd5 : List UInt8 → δ} {vm : Vm} {st st' : Checker δ}

theorem checkSkipList_iff {md5 : δ} : checkSkipList st md5 = true ↔ md5 ∈ st.skipList := by
  simp [checkSkipList]

theorem mem_ptrCheckSkip (mem : Bool) (data : List UInt8) {md5 : δ} (h : md5 ∈ st.skipList)
    : md5 ∈ (ptrCheckSkip computeMd5 mem st data).skipList := by
  unfold ptrCheckSkip
  dsimp only
  split
  . exact h
  split
  . exact mem_cons_of_mem _ h
  . exact h

theorem ptrCheckSkip_procVm (mem : Bool) (data : List UInt8)
    : (ptrCheckSkip computeMd5 mem st data).procVm = st.procVm := by
  unfold ptrCheckSkip
  dsimp only
  split
  . rfl
  . split <;> rfl

def Alarms (computeMd5 : List UInt8 → δ) (vm : Vm) (skipList : List δ) (data : List UInt8) : Prop :=
  data ≠ [] ∧ computeMd5 data ∉ skipList ∧ (vm.ret < 0 ∨ Leaks vm.regions data)

section

variable (hproc : st.procVm = [])
include hproc

theorem checkBuffer_cases (data : List UInt8)
    : checkBuffer computeMd5 vm st data = none ∧ Alarms computeMd5 vm st.skipList data
      ∨ checkBuffer computeMd5 vm st data = some st ∧ ¬Alarms computeMd5 vm st.skipList data := by
  rcases st with ⟨procVm, skipList⟩
  obtain rfl : procVm = [] := hproc
  unfold checkBuffer checkPointers
  simp only
  split
  . next hskip =>
    apply Or.inr
    refine ⟨rfl, ?_⟩
    rintro ⟨hne, hnot, _⟩
    unfold shouldSkipCheck at hskip
    rw [if_neg (by simpa using hne), checkSkipList_iff] at hskip
    exact hnot hskip
  rename_i hskip
  have hcheck : data ≠ [] ∧ computeMd5 data ∉ skipList := by
    unfold shouldSkipCheck at hskip
    split at hskip
    . contradiction
    rename_i hne
    rw [checkSkipList_iff] at hskip
    exact ⟨by simpa using hne, hskip⟩
  simp only [ne_eq, not_true_eq_false, ↓reduceIte, getVm, nil_append]
  by_cases hret : vm.ret < 0
  . simp only [hret, ↓reduceIte]
    exact Or.inl ⟨trivial, hcheck.1, hcheck.2, Or.inl hret⟩
  simp only [hret, ↓reduceIte, Int.lt_irrefl]
  by_cases hfind : findPointer vm.regions data = true
  . simp only [hfind, ↓reduceIte]
    exact Or.inl ⟨trivial, hcheck.1, hcheck.2, Or.inr ((findPointer_iff _ _).mp hfind)⟩
  simp only [hfind, Bool.false_eq_true, ↓reduceIte]
  refine Or.inr ⟨rfl, ?_⟩
  rintro ⟨_, _, hfail | hleaks⟩
  . exact hret hfail
  . exact hfind ((findPointer_iff _ _).mpr hleaks)

theorem checkIov_cases (iov : List UInt8)
    : checkIov true computeMd5 vm st iov = none ∧ Alarms computeMd5 vm st.skipList (iov.drop 16)
      ∨ checkIov true computeMd5 vm st iov = some st
        ∧ ¬Alarms computeMd5 vm st.skipList (iov.drop 16) := by
  unfold checkIov
  simp only [↓reduceIte]
  split
  . exact checkBuffer_cases hproc _
  rename_i hlen
  apply Or.inr
  refine ⟨rfl, ?_⟩
  rintro ⟨hne, _⟩
  apply hne
  apply drop_of_length_le
  omega

theorem sendmsg_cases (msgIov : List (List UInt8))
    : sendmsg true computeMd5 vm st msgIov = none
        ∧ (∃ iov ∈ msgIov, Alarms computeMd5 vm st.skipList (iov.drop 16))
      ∨ sendmsg true computeMd5 vm st msgIov = some st
        ∧ ∀ iov ∈ msgIov, ¬Alarms computeMd5 vm st.skipList (iov.drop 16) := by
  induction msgIov with
  | nil => exact Or.inr ⟨rfl, by simp⟩
  | cons iov msgIov ih =>
    unfold sendmsg
    rcases checkIov_cases hproc iov with ⟨hcheck, halarm⟩ | ⟨hcheck, halarm⟩
    . rw [hcheck]
      exact Or.inl ⟨rfl, iov, mem_cons_self, halarm⟩
    rw [hcheck]
    rcases ih with ⟨hsend, iov', hmem, halarm'⟩ | ⟨hsend, hrest⟩
    . exact Or.inl ⟨hsend, iov', mem_cons_of_mem _ hmem, halarm'⟩
    apply Or.inr
    refine ⟨hsend, ?_⟩
    intro iov' hmem
    rcases mem_cons.mp hmem with rfl | hmem
    . exact halarm
    . exact hrest iov' hmem

inductive Call where
  | skip (mem : Bool) (data : List UInt8)
  | check (vm : Vm) (data : Option (List UInt8))

def Call.run (computeMd5 : List UInt8 → δ) (st : Checker δ) : Call → Option (Checker δ)
  | .skip mem data => some (ptrCheckSkip computeMd5 mem st data)
  | .check vm data => checkPointers computeMd5 vm st data

-- what the calls so far leave behind
structure Exact (computeMd5 : List UInt8 → δ) (calls : List Call) (st : Checker δ) : Prop where
  procVm : st.procVm = []
  nodup : st.skipList.Nodup
  registered : ∀ md5, md5 ∈ st.skipList ↔ ∃ data, .skip true data ∈ calls ∧ computeMd5 data = md5

theorem checkPointers_cases (data : Option (List UInt8))
    : checkPointers computeMd5 vm st data = none ∧ (∃ bytes ∈ data, Alarms computeMd5 vm st.skipList bytes)
      ∨ checkPointers computeMd5 vm st data = some st ∧ ∀ bytes ∈ data, ¬Alarms computeMd5 vm st.skipList bytes := by
  cases data with
  | none => exact Or.inr ⟨rfl, by simp⟩
  | some bytes =>
    simp only [Option.mem_some_iff, exists_eq_left', forall_eq']
    exact checkBuffer_cases hproc bytes

end

theorem Exact.skip {calls : List Call} (h : Exact computeMd5 calls st) (mem : Bool) (data : List UInt8)
    : Exact computeMd5 (calls ++ [.skip mem data]) (ptrCheckSkip computeMd5 mem st data) := by
  refine ⟨(ptrCheckSkip_procVm mem data).trans h.procVm, ?_, ?_⟩
  all_goals
    unfold ptrCheckSkip
    dsimp only
  . split
    . exact h.nodup
    rename_i hnew
    rw [checkSkipList_iff] at hnew
    split
    . exact nodup_cons.mpr ⟨hnew, h.nodup⟩
    . exact h.nodup
  . intro md5
    simp only [mem_append, mem_singleton, Call.skip.injEq, or_and_right, exists_or, ← h.registered]
    split
    . next hold =>
      rw [checkSkipList_iff] at hold
      constructor
      . exact Or.inl
      rintro (hmem | ⟨_, ⟨_, rfl⟩, rfl⟩)
      . exact hmem
      . exact hold
    cases mem with
    | true => simp [eq_comm, or_comm]
    | false => simp

theorem Exact.run {calls : List Call} {call : Call} (h : Exact computeMd5 calls st)
    (hrun : call.run computeMd5 st = some st')
    : Exact computeMd5 (calls ++ [call]) st' := by
  cases call with
  | skip mem data =>
    cases hrun
    exact h.skip mem data
  | check vm data =>
    rcases checkPointers_cases h.procVm data with ⟨hnone, _⟩ | ⟨hsome, _⟩
    . exact absurd (hnone.symm.trans hrun) (by simp)
    . cases hsome.symm.trans hrun
      exact ⟨h.procVm, h.nodup, by simpa using h.registered⟩

theorem checkPointers_exact (computeMd5 : List UInt8 → δ) {calls : List Call} {st : Checker δ}
    (hrun : Machine.run (Call.run computeMd5) ⟨[], []⟩ calls = some st)
    : Exact computeMd5 calls st
      ∧ ∀ vm data, 0 ≤ vm.ret →
        (checkPointers computeMd5 vm st data = none
          ↔ ∃ bytes, data = some bytes ∧ bytes ≠ [] ∧ computeMd5 bytes ∉ st.skipList ∧ Leaks vm.regions bytes) := by
  have hexact : Exact computeMd5 ([] ++ calls) st := by
    apply Machine.run_inv_history _ hrun (Machine.runMeets_of_forall fun _ _ => trivial)
    . exact ⟨rfl, nodup_nil, by simp⟩
    . intro history st call st' h _ hcall
      exact h.run hcall
  refine ⟨hexact, ?_⟩
  intro vm data hvm
  have halarm (bytes : List UInt8) : Alarms computeMd5 vm st.skipList bytes
      ↔ bytes ≠ [] ∧ computeMd5 bytes ∉ st.skipList ∧ Leaks vm.regions bytes := by
    unfold Alarms
    rw [or_iff_right (Int.not_lt.mpr hvm)]
  simp only [← halarm]
  rcases checkPointers_cases hexact.procVm data with ⟨hcheck, h⟩ | ⟨hcheck, h⟩
  . exact iff_of_true hcheck h
  rw [hcheck]
  apply iff_of_false (by simp)
  rintro ⟨bytes, hdata, hbytes⟩
  exact h bytes hdata hbytes

theorem checkPointers_exact_registered
    : Exact id [.skip true [7], .check ⟨[⟨0, 8⟩], 0⟩ (some [7])] ⟨[], [[7]]⟩ :=
  (checkPointers_exact id rfl).1

-- `malloc` fails: the buffer is not registered
theorem ptrCheckSkip_out_of_memory
    : ¬∀ md5, md5 ∈ (ptrCheckSkip id false ⟨[], []⟩ [7]).skipList ↔ md5 = [7] := by
  intro h
  exact not_mem_nil ((h [7]).mpr rfl)

end

open Libutil

structure Holds (slot : Slot) (buf : Ibuf) : Prop where
  wf : buf.Wf
  data_eq : ∃ hdr, hdr.length = slot.lead ∧ ibufData buf = (hdr ++ slot.payload).drop slot.cut
  cut_le : slot.cut ≤ slot.length
  handed : slot.cut = 0 ∧ slot.handed = 0 ∨ slot.handed = slot.length

variable {slot : Slot} {buf : Ibuf}

section

variable (h : Holds slot buf)
include h

theorem Holds.size_eq : ibufSize buf = slot.length - slot.cut := by
  rcases h.data_eq with ⟨hdr, hhdr, hdata⟩
  rw [← ibufData_length h.wf, hdata]
  simp [Slot.length, hhdr]

theorem Holds.length_eq : (ibufData buf).length = slot.length - slot.cut := by
  rw [ibufData_length h.wf, h.size_eq]

theorem Holds.hand : Holds slot.hand buf :=
  ⟨h.wf, h.data_eq, h.cut_le, Or.inr rfl⟩

theorem Holds.of_fd (fd : Int) : Holds slot { buf with fd } :=
  ⟨⟨h.wf.rpos_le, h.wf.wpos_le⟩, h.data_eq, h.cut_le, h.handed⟩

theorem Holds.advance {n : Nat} (hn : n ≤ slot.length - slot.cut) (hhanded : n = 0 ∨ slot.handed = slot.length)
    : Holds { slot with cut := slot.cut + n } { buf with rpos := buf.rpos + n } := by
  rcases h.data_eq with ⟨hdr, hhdr, hdata⟩
  have hcut := h.cut_le
  refine ⟨h.wf.advance (by rw [h.size_eq]; exact hn), ⟨hdr, hhdr, ?_⟩, ?_, ?_⟩
  . rw [ibufData_advance, hdata, drop_drop]
  . show slot.cut + n ≤ slot.length
    omega
  rcases hhanded with rfl | hhanded
  . exact h.handed
  . exact Or.inr hhanded

end

section

variable {slots : List Slot} {bufs : List Ibuf}

theorem holds_drain_zero (h : Forall₂ Holds slots bufs) (queued : UInt32)
    : Forall₂ Holds (drainSlots slots 0) (msgbufDrain.go bufs queued 0).1.bufs := by
  induction h generalizing queued with
  | nil => exact Forall₂.nil
  | @cons slot buf slots bufs hbuf hbufs ih =>
    unfold drainSlots msgbufDrain.go
    rw [hbuf.size_eq]
    split
    . simp only [Nat.zero_sub]
      exact ih (queued - 1)
    . exact Forall₂.cons (hbuf.advance (Nat.zero_le _) (Or.inl rfl)) hbufs

def left (slots : List Slot) : Nat :=
  (slots.map fun slot => slot.length - slot.cut).sum

variable {n : Nat} {slots : List Slot} {slot : Slot}

theorem holds_drain {sent rest : List Slot} (hsent : ∀ slot ∈ sent, slot.handed = slot.length)
    (h : Forall₂ Holds (sent ++ rest) bufs) (hn : n ≤ left sent) (queued : UInt32)
    : Forall₂ Holds (drainSlots (sent ++ rest) n) (msgbufDrain.go bufs queued n).1.bufs := by
  induction sent generalizing bufs n queued with
  | nil =>
    obtain rfl : n = 0 := Nat.le_zero.mp hn
    exact holds_drain_zero h queued
  | cons slot sent ih =>
    cases h with
    | @cons _ buf _ bufs hbuf hbufs =>
      simp only [cons_append]
      unfold drainSlots msgbufDrain.go
      rw [hbuf.size_eq]
      split
      . apply ih
        . intro slot' hslot'
          exact hsent slot' (mem_cons_of_mem _ hslot')
        . exact hbufs
        . simp only [left, map_cons, sum_cons] at *
          omega
      rename_i hlt
      apply Forall₂.cons
      . apply hbuf.advance
        . omega
        . exact Or.inr (hsent slot mem_cons_self)
      . exact hbufs

theorem holds_handSlots (h : Forall₂ Holds slots bufs) (iovs : Nat)
    : Forall₂ Holds (handSlots iovs slots) bufs := by
  induction h generalizing iovs with
  | nil => simp [handSlots]
  | cons hbuf hbufs ih =>
    cases iovs with
    | zero => exact Forall₂.cons hbuf hbufs
    | succ iovs => exact Forall₂.cons hbuf.hand (ih iovs)

theorem left_hand (slots : List Slot) : left (slots.map Slot.hand) = left slots := by
  simp only [left, map_map]
  rfl

theorem left_eq (h : Forall₂ Holds slots bufs) : (bufs.map ibufData).flatten.length = left slots := by
  induction h with
  | nil => rfl
  | cons hbuf hbufs ih =>
    simp only [map_cons, flatten_cons, length_append, hbuf.length_eq, ih, left,
      sum_cons]

def Slot.Same (slot slot' : Slot) : Prop :=
  slot.payload = slot'.payload ∧ slot.own = slot'.own ∧ slot.registered = slot'.registered

theorem mem_drainSlots (h : slot ∈ drainSlots slots n) : ∃ slot' ∈ slots, slot.Same slot' := by
  induction slots generalizing n with
  | nil => simp [drainSlots] at h
  | cons slot' slots ih =>
    unfold drainSlots at h
    split at h
    . rcases ih h with ⟨slot'', hmem, hsame⟩
      exact ⟨slot'', mem_cons_of_mem _ hmem, hsame⟩
    rcases mem_cons.mp h with rfl | hmem
    . exact ⟨slot', mem_cons_self, rfl, rfl, rfl⟩
    . exact ⟨slot, mem_cons_of_mem _ hmem, rfl, rfl, rfl⟩

theorem mem_handSlots {iovs : Nat} (h : slot ∈ handSlots iovs slots)
    : ∃ slot' ∈ slots, slot.Same slot' := by
  rcases mem_append.mp h with hmem | hmem
  . rcases mem_map.mp hmem with ⟨slot', hmem', rfl⟩
    exact ⟨slot', mem_of_mem_take hmem', rfl, rfl, rfl⟩
  . exact ⟨slot, mem_of_mem_drop hmem, rfl, rfl, rfl⟩

end

variable {δ : Type} {s : Sender δ}

theorem mem_drained {res : Sent} {slot : Slot} (h : slot ∈ s.drained res)
    : ∃ slot' ∈ s.slots, slot.Same slot' := by
  unfold Sender.drained at h
  split at h
  . rcases mem_drainSlots h with ⟨slot', hmem, hsame⟩
    rcases mem_handSlots hmem with ⟨slot'', hmem', hsame'⟩
    refine ⟨slot'', hmem', ?_⟩
    exact ⟨hsame.1.trans hsame'.1, hsame.2.1.trans hsame'.2.1, hsame.2.2.trans hsame'.2.2⟩
  . exact mem_handSlots h

section

variable (h : Forall₂ Holds s.slots s.imsgbuf.w.bufs.bufs)
include h

theorem holds_take : Forall₂ Holds s.iovSlots (msgbufWriteIov s.imsgbuf.w) := by
  rcases msgbufWriteIov.go_append 0 s.imsgbuf.w.bufs.bufs with ⟨rest, hrest⟩
  have htake : msgbufWriteIov s.imsgbuf.w = s.imsgbuf.w.bufs.bufs.take s.iov.length := by
    rw [Sender.iov, length_map]
    unfold msgbufWriteIov
    generalize msgbufWriteIov.go 0 s.imsgbuf.w.bufs.bufs = iov at hrest
    rw [hrest, take_left]
  rw [htake]
  exact forall₂_take _ h

theorem holds_write (res : Sent) (hiov : s.iov ≠ []) (hres : ∀ n, res = .bytes n → n ≤ s.iov.flatten.length)
    : Forall₂ Holds (s.drained res) (msgbufWrite s.imsgbuf.w res).2.1.bufs.bufs := by
  have hhand := holds_handSlots h s.iov.length
  have hne : msgbufWriteIov s.imsgbuf.w ≠ [] := by
    intro hempty
    apply hiov
    simp [Sender.iov, hempty]
  cases res with
  | again | error =>
    simp only [msgbufWrite, hne, ↓reduceIte]
    exact hhand
  | bytes n =>
    have hn : n ≤ left (s.iovSlots.map Slot.hand) := by
      rw [left_hand, ← left_eq (holds_take h)]
      exact hres n rfl
    have hsent : ∀ slot ∈ s.iovSlots.map Slot.hand, slot.handed = slot.length := by
      intro slot hslot
      rcases mem_map.mp hslot with ⟨slot', _, rfl⟩
      rfl
    have hdrain : ∀ w : Msgbuf, Forall₂ Holds (handSlots s.iov.length s.slots) w.bufs.bufs →
        Forall₂ Holds (s.drained (.bytes n)) (msgbufDrain w n).1.bufs.bufs :=
      fun w hw => holds_drain hsent hw hn w.bufs.queued
    unfold msgbufWrite
    simp only [hne, ↓reduceIte]
    split
    . exact hdrain _ hhand
    apply hdrain
    unfold clearBuf0
    split
    . exact hhand
    rename_i buf0 bufs hbufs
    rw [hbufs] at hhand
    revert hhand
    generalize handSlots s.iov.length s.slots = slots
    intro hhand
    cases hhand with
    | cons hbuf hrest => exact Forall₂.cons (hbuf.of_fd _) hrest

end

theorem holds_fresh {payload : List UInt8} {own registered : Bool} {buf : Ibuf} (hwf : buf.Wf)
    (hdata : ∃ hdr, hdr.length = (Slot.fresh payload own registered).lead ∧ ibufData buf = hdr ++ payload)
    : Holds (Slot.fresh payload own registered) buf :=
  ⟨hwf, hdata, Nat.zero_le _, Or.inl ⟨rfl, rfl⟩⟩

structure Inv (computeMd5 : List UInt8 → δ) (s : Sender δ) : Prop where
  procVm_eq : s.checker.procVm = []
  holds : Forall₂ Holds s.slots s.imsgbuf.w.bufs.bufs
  registered : ∀ slot ∈ s.slots, slot.registered = true →
    slot.own = false ∧ computeMd5 slot.payload ∈ s.checker.skipList

variable {computeMd5 : List UInt8 → δ}

theorem queue_inv (h : Inv computeMd5 s) {out : Int × Imsgbuf × List Eff} {slots : List Slot}
    (hout : out.1 = -1 ∧ out.2.1 = s.imsgbuf
      ∨ out.1 = 1 ∧ ∃ bufs, out.2.1.w.bufs.bufs = s.imsgbuf.w.bufs.bufs ++ bufs ∧ Forall₂ Holds slots bufs)
    (hregistered : ∀ slot ∈ slots, slot.registered = true →
      slot.own = false ∧ computeMd5 slot.payload ∈ s.checker.skipList)
    : Inv computeMd5 (s.queue out slots) := by
  rcases hout with ⟨hret, hsame⟩ | ⟨hret, bufs, hbufs, hholds⟩
  . have hne : ¬(out.1 = 1) := by
      rw [hret]
      decide
    refine ⟨h.procVm_eq, ?_, ?_⟩
    . simp only [Sender.queue, hne, ↓reduceIte, hsame]
      exact h.holds
    . simp only [Sender.queue, hne, ↓reduceIte]
      exact h.registered
  refine ⟨h.procVm_eq, ?_, ?_⟩
  . simp only [Sender.queue, hret, ↓reduceIte, hbufs]
    exact rel_append h.holds hholds
  simp only [Sender.queue, hret, ↓reduceIte]
  intro slot hslot
  rcases mem_append.mp hslot with hslot | hslot
  . exact h.registered slot hslot
  . exact hregistered slot hslot

theorem pushes_inv (h : Inv computeMd5 s) {payload : List UInt8} {out : Int × Imsgbuf × List Eff}
    {registered : Bool} (hout : Pushes s.imsgbuf payload out.1 out.2.1)
    (hregistered : registered = true → computeMd5 payload ∈ s.checker.skipList)
    : Inv computeMd5 (s.queue out [Slot.fresh payload false registered]) := by
  apply queue_inv h
  . apply hout.imp_right
    rintro ⟨hret, buf, hdr, hbufs, hwf, hhdr, hdata⟩
    exact ⟨hret, [buf], hbufs, .cons (holds_fresh hwf ⟨hdr, hhdr, hdata⟩) .nil⟩
  . intro slot hslot hreg
    cases mem_singleton.mp hslot
    exact ⟨rfl, hregistered hreg⟩

theorem composeIbuf_inv (h : Inv computeMd5 s) (mem : Nat → Bool) (type id pid : UInt32) {buf : Ibuf} (hbuf : buf.Wf)
    : Inv computeMd5
        (s.queue (imsgComposeIbuf mem s.imsgbuf type id pid buf)
          [Slot.fresh [] false false, Slot.fresh (ibufData buf) true false]) := by
  apply queue_inv h
  . apply (@imsgComposeIbuf_pushes s.imsgbuf mem type id pid buf).imp_right
    rintro ⟨hret, hdrbuf, hbufs, hwf, hhdr⟩
    refine ⟨hret, [hdrbuf, buf], hbufs, .cons ?_ (.cons ?_ .nil)⟩
    . exact holds_fresh hwf ⟨_, hhdr, (append_nil _).symm⟩
    . exact holds_fresh hbuf ⟨[], rfl, rfl⟩
  . intro slot hslot hreg
    simp only [mem_cons, not_mem_nil, or_false] at hslot
    rcases hslot with rfl | rfl
    . contradiction
    . contradiction

theorem reachable_inv [DecidableEq δ] (h : Reachable computeMd5 s) : Inv computeMd5 s := by
  induction h with
  | init imsgbuf hfdpass hbufs =>
    refine ⟨rfl, ?_, by simp⟩
    simp only [hbufs]
    exact Forall₂.nil
  | skip _ mem data ih =>
    refine ⟨?_, ih.holds, ?_⟩
    . rw [ptrCheckSkip_procVm]
      exact ih.procVm_eq
    intro slot hslot hreg
    have ⟨hown, hmem⟩ := ih.registered slot hslot hreg
    exact ⟨hown, mem_ptrCheckSkip mem data hmem⟩
  | compose _ mem type id pid fd data ih =>
    apply pushes_inv ih (imsgCompose_pushes mem type id pid fd data)
    intro hreg
    exact checkSkipList_iff.mp hreg
  | composev _ mem type id pid fd iov ih =>
    apply pushes_inv ih (imsgComposev_pushes mem type id pid fd iov)
    intro hreg
    contradiction
  | composeIbuf _ mem type id pid buf hbuf ih => exact composeIbuf_inv ih mem type id pid hbuf
  | forward _ mem msg ih =>
    apply pushes_inv ih (imsgForward_pushes mem msg)
    intro hreg
    contradiction
  | @write s _ vm res checker hiov hres hsend ih =>
    have hchecker : checker = s.checker := by
      rcases @sendmsg_cases δ _ computeMd5 vm s.checker ih.procVm_eq s.iov with ⟨hnone, _⟩ | ⟨hsome, _⟩
      . rw [hnone] at hsend
        contradiction
      rw [hsome] at hsend
      cases hsend
      rfl
    subst hchecker
    refine ⟨ih.procVm_eq, holds_write ih.holds res hiov hres, ?_⟩
    intro slot hslot hreg
    rcases mem_drained hslot with ⟨slot', hmem, hpayload, hown, hregistered⟩
    rw [hpayload, hown]
    apply ih.registered slot' hmem
    rw [← hregistered]
    exact hreg

end PtrChecker
