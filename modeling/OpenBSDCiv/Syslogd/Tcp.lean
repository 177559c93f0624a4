import Mathlib

namespace Syslogd

open List

def logMaxline : Nat := 8192

def intMax : Nat := 2 ^ 31 - 1

def isdigit (c : UInt8) : Bool :=
  48 ≤ c ∧ c ≤ 57

def atoi (digits : List UInt8) : Nat :=
  digits.foldl (fun n c => 10 * n + (c.toNat - 48)) 0

inductive Framing where
  | unknown
  | incomplete
  -- the buffer from the message on, after the header is drained
  | frame (len : Nat) (msg : List UInt8)

def octetCounting (buf : List UInt8) : Framing :=
  let digits := (buf.take 5).takeWhile isdigit
  let p := digits.length
  if p = 0 ∨ buf[p]? ≠ some 32 then
    .unknown
  else if p + 1 + atoi digits > buf.length then
    .incomplete
  else
    .frame (atoi digits) (buf.drop (p + 1))

def nonTransparentFraming (buf : List UInt8) : Framing :=
  let p := buf.findIdx fun c => c == 0 || c == 10
  if p + 1 ≥ intMax then
    .unknown
  else if p ≥ buf.length then
    .incomplete
  else if 0 < p ∧ buf[p]? = some 10 ∧ buf[p - 1]? = some 13 then
    .frame (p + 1) (buf.set (p - 1) 0)
  else
    .frame (p + 1) buf

def framing (input : List UInt8) : Framing :=
  match octetCounting input with
  | .unknown => nonTransparentFraming input
  | result => result

def printed (len : Nat) (msg : List UInt8) : List UInt8 :=
  let msg := if 0 < len ∧ msg[len - 1]? = some 10 then msg.set (len - 1) 0 else msg
  if len = 0 ∨ msg[len - 1]? ≠ some 0 then
    (msg.take (min len logMaxline)).takeWhile (· != 0)
  else
    msg.takeWhile (· != 0)

theorem framing_drains {input msg : List UInt8} {len : Nat} (h : framing input = .frame len msg)
    : msg.length - len < input.length := by
  unfold framing at h
  split at h
  . unfold nonTransparentFraming at h
    grind
  . unfold octetCounting at h
    grind

-- an empty buffer is no frame, so the loop ends there as well
def tcpReadcb.loop (input : List UInt8) : List (List UInt8) × List UInt8 :=
  match h : framing input with
  | .frame len msg =>
    have := framing_drains h
    let (lines, input) := loop (msg.drop len)
    (printed len msg :: lines, input)
  | _ => ([], input)
termination_by input.length

def tcpReadcb (input : List UInt8) : List (List UInt8) × List UInt8 :=
  let (lines, input) := tcpReadcb.loop input
  if input.length ≥ 5 + 1 + logMaxline + 1 then
    (lines ++ [(input.take (5 + 1 + logMaxline)).takeWhile (· != 0)], [])
  else
    (lines, input)

def tcpInput (input : List UInt8) : List (List UInt8) → List (List UInt8)
  | [] => []
  | data :: appends =>
    let (lines, input) := tcpReadcb (input ++ data)
    lines ++ tcpInput input appends

inductive Frame where
  | counted (digits msg : List UInt8) (hdigits : ∀ c ∈ digits, isdigit c)
    (hlength : 0 < digits.length ∧ digits.length ≤ 5) (hcount : atoi digits = msg.length)
    (hmax : msg.length ≤ logMaxline)
  | line (body : List UInt8) (trailer : UInt8) (htrailer : trailer = 0 ∨ trailer = 10)
    (hbody : ∀ c ∈ body, ¬(c = 0 ∨ c = 10)) (hstart : ∀ c ∈ body.head?, ¬isdigit c)
    (hmax : body.length ≤ logMaxline)

def chomp (c : UInt8) (s : List UInt8) : List UInt8 :=
  if s.getLast? = some c then s.dropLast else s

namespace Frame

def octets : Frame → List UInt8
  | counted digits msg .. => digits ++ 32 :: msg
  | line body trailer .. => body ++ [trailer]

-- a carriage return before the newline belongs to the terminator of a line, not to a counted frame
def text : Frame → List UInt8
  | counted _ msg .. => (chomp 10 msg).takeWhile (· != 0)
  | line body trailer .. => if trailer = 10 then chomp 13 body else body

end Frame

theorem takeWhile_zero (s rest : List UInt8) : (s ++ 0 :: rest).takeWhile (· != 0) = s.takeWhile (· != 0) := by
  induction s with
  | nil => rfl
  | cons c s ih => simp only [cons_append, takeWhile_cons, ih]

theorem printed_eq {m : List UInt8} (rest : List UInt8)
    (h : ∀ c ∈ m.getLast?, ¬(c = 0 ∨ c = 10) → m.length ≤ logMaxline)
    : printed m.length (m ++ rest) = (chomp 10 m).takeWhile (· != 0) := by
  rcases eq_nil_or_concat m with rfl | ⟨m, c, rfl⟩
  . rfl
  have htake := takeWhile_zero m
  unfold printed chomp
  by_cases hlf : c = 10
  . simp [hlf, htake]
  by_cases hnul : c = 0
  . simp [hnul, htake]
  have hmax := h c (by simp) (by simp [hlf, hnul])
  rw [length_concat] at hmax
  simp [hlf, hnul, Nat.min_eq_left hmax, take_append, take_of_length_le]

theorem octetCounting_counted {digits : List UInt8} (hdigits : ∀ c ∈ digits, isdigit c)
    (hlength : 0 < digits.length ∧ digits.length ≤ 5) (msg : List UInt8)
    : octetCounting (digits ++ 32 :: msg)
      = if atoi digits > msg.length then .incomplete else .frame (atoi digits) msg := by
  have hheader : ((digits ++ 32 :: msg).take 5).takeWhile isdigit = digits := by
    rw [take_append, take_of_length_le hlength.2, takeWhile_append_of_pos hdigits]
    cases 5 - digits.length with
    | zero => simp
    | succ n => simp [isdigit]
  unfold octetCounting
  simp [hheader, Nat.ne_of_gt hlength.1]
  grind

theorem octetCounting_unknown {buf : List UInt8} (h : ∀ c ∈ buf.head?, ¬isdigit c)
    : octetCounting buf = .unknown := by
  cases buf with
  | nil => rfl
  | cons c buf => simp_all [octetCounting]

section

variable {body : List UInt8} (hbody : ∀ c ∈ body, ¬(c = 0 ∨ c = 10))
include hbody

theorem findIdx_body : body.findIdx (fun c => c == 0 || c == 10) = body.length := by
  simpa [findIdx_eq_length] using hbody

variable (hmax : body.length ≤ logMaxline)
include hmax

omit hbody in
theorem length_lt_intMax : ¬body.length + 1 ≥ intMax := by
  unfold logMaxline at hmax
  unfold intMax
  omega

theorem nonTransparentFraming_incomplete : nonTransparentFraming body = .incomplete := by
  unfold nonTransparentFraming
  simp [findIdx_body hbody, length_lt_intMax hmax]

theorem nonTransparentFraming_line {trailer : UInt8} (htrailer : trailer = 0 ∨ trailer = 10) (rest : List UInt8)
    : ∃ m, nonTransparentFraming (body ++ trailer :: rest) = .frame m.length (m ++ rest)
      ∧ printed m.length (m ++ rest) = if trailer = 10 then chomp 13 body else body := by
  have hp : (body ++ trailer :: rest).findIdx (fun c => c == 0 || c == 10) = body.length := by
    rw [findIdx_append, findIdx_body hbody]
    rcases htrailer with rfl | rfl
    . simp [findIdx_cons]
    . simp [findIdx_cons]
  have hzero : body.takeWhile (· != 0) = body := by
    rw [takeWhile_eq_self_iff]
    grind
  unfold nonTransparentFraming
  simp only [hp]
  rw [if_neg (length_lt_intMax hmax), if_neg (by simp)]
  by_cases hcr : trailer = 10 ∧ body.getLast? = some 13
  . rcases hcr with ⟨rfl, hlast⟩
    rcases getLast?_eq_some_iff.mp hlast with ⟨body, rfl⟩
    refine ⟨body ++ [0, 10], by simp, ?_⟩
    rw [printed_eq rest (by simp)]
    simp [chomp, takeWhile_zero, takeWhile_eq_self_iff]
    grind
  . refine ⟨body ++ [trailer], ?_, ?_⟩
    . rw [if_neg]
      . simp
      rintro ⟨hpos, hlf, hlast⟩
      rw [getElem?_append_left (by omega), ← getLast?_eq_getElem?] at hlast
      exact hcr ⟨by simpa using hlf, hlast⟩
    rw [printed_eq rest (by simp; grind)]
    rcases htrailer with rfl | rfl
    . simp [chomp, takeWhile_zero, hzero]
    . simp_all [chomp]

end

namespace Frame

theorem framing_octets (f : Frame) (rest : List UInt8)
    : ∃ m, framing (f.octets ++ rest) = .frame m.length (m ++ rest) ∧ printed m.length (m ++ rest) = f.text := by
  unfold framing octets text
  cases f with
  | counted digits msg hdigits hlength hcount hmax =>
    refine ⟨msg, ?_, printed_eq rest fun _ _ _ => hmax⟩
    simp [octetCounting_counted hdigits hlength, hcount]
  | line body trailer htrailer hbody hstart hmax =>
    have hunknown : octetCounting (body ++ [trailer] ++ rest) = .unknown := by
      apply octetCounting_unknown
      cases body with
      | nil =>
        rcases htrailer with rfl | rfl
        . simp [isdigit]
        . simp [isdigit]
      | cons c body => exact hstart
    rw [hunknown, append_assoc]
    exact nonTransparentFraming_line hbody hmax htrailer rest

theorem framing_part (f : Frame) {part : List UInt8} (hpart : part <+: f.octets) (hlt : part.length < f.octets.length)
    : framing part = .incomplete ∧ part.length < 5 + 1 + logMaxline + 1 := by
  unfold framing
  cases f with
  | counted digits msg hdigits hlength hcount hmax =>
    rcases hpart with ⟨tail, htail⟩
    rcases Nat.lt_or_ge digits.length part.length with hgt | hle
    . rcases append_eq_append_iff.mp htail with ⟨more, rfl, _⟩ | ⟨more, rfl, hmore⟩
      . simp at hgt
      cases more with
      | nil => simp at hgt
      | cons c more =>
        cases hmore
        simp [octets] at hlt hcount hmax ⊢
        rw [octetCounting_counted hdigits hlength, if_pos (by omega)]
        constructor
        . rfl
        . omega
    . have hpart : part <+: digits := prefix_of_prefix_length_le ⟨tail, htail⟩ (prefix_append _ _) hle
      have hall : ∀ c ∈ part, isdigit c := fun c hc => hdigits c (hpart.subset hc)
      have hunknown : octetCounting part = .unknown := by
        unfold octetCounting
        simp [take_of_length_le (hle.trans hlength.2), takeWhile_eq_self_iff.mpr hall]
      rw [hunknown, nonTransparentFraming_incomplete]
      . constructor
        . rfl
        . omega
      . intro c hc
        have := hall c hc
        rintro (rfl | rfl)
        . simp [isdigit] at this
        . simp [isdigit] at this
      . unfold logMaxline
        omega
  | line body trailer htrailer hbody hstart hmax =>
    rcases prefix_concat_iff.mp hpart with rfl | ⟨tail, rfl⟩
    . exact absurd hlt (lt_irrefl _)
    rw [length_append] at hmax
    rw [octetCounting_unknown, nonTransparentFraming_incomplete]
    . simp
      omega
    . exact fun c hc => hbody c (mem_append_left _ hc)
    . omega
    . cases part with
      | nil => simp
      | cons c part => exact hstart

end Frame

theorem tcpReadcb.loop_eq (frames : List Frame) {input : List UInt8} (h : input <+: frames.flatMap Frame.octets)
    : ∃ done rest part, frames = done ++ rest ∧ input = done.flatMap Frame.octets ++ part
      ∧ loop input = (done.map Frame.text, part) ∧ part.length < 5 + 1 + logMaxline + 1
      ∧ ∀ f ∈ rest.head?, part.length < f.octets.length := by
  induction frames generalizing input with
  | nil =>
    rw [flatMap_nil, prefix_nil] at h
    subst h
    refine ⟨[], [], [], rfl, rfl, ?_, by simp, by simp⟩
    rw [loop]
    rfl
  | cons f frames ih =>
    rw [flatMap_cons] at h
    rcases Nat.lt_or_ge input.length f.octets.length with hlt | hge
    . have hpart := prefix_of_prefix_length_le h (prefix_append _ _) (Nat.le_of_lt hlt)
      rcases f.framing_part hpart hlt with ⟨hframing, hshort⟩
      refine ⟨[], f :: frames, input, rfl, rfl, ?_, hshort, by simpa using hlt⟩
      rw [loop]
      split
      . next heq =>
        rw [hframing] at heq
        contradiction
      . rfl
    . rcases prefix_of_prefix_length_le (prefix_append _ _) h hge with ⟨input, rfl⟩
      rcases ih ((prefix_append_right_inj _).mp h) with ⟨done, rest, part, rfl, hinput, hloop, hshort, hrest⟩
      rcases f.framing_octets input with ⟨m, hframing, hprinted⟩
      refine ⟨f :: done, rest, part, rfl, ?_, ?_, hshort, hrest⟩
      . rw [flatMap_cons, append_assoc, hinput]
      rw [loop]
      split
      . next heq =>
        rw [hframing] at heq
        cases heq
        rw [drop_left, hloop, hprinted, map_cons]
      . next hnot => exact absurd hframing (hnot _ _)

theorem tcpInput_eq (frames : List Frame) {input : List UInt8} (appends : List (List UInt8))
    (hinput : ∀ f ∈ frames.head?, input.length < f.octets.length)
    (h : input ++ appends.flatten = frames.flatMap Frame.octets)
    : tcpInput input appends = frames.map Frame.text := by
  induction appends generalizing frames input with
  | nil =>
    cases frames with
    | nil => rfl
    | cons f frames =>
      have hlen := congrArg length h
      have hlt := hinput f rfl
      simp at hlen
      omega
  | cons data appends ih =>
    rw [flatten_cons, ← append_assoc] at h
    rcases tcpReadcb.loop_eq frames ⟨_, h⟩ with ⟨done, rest, part, rfl, hpart, hloop, hshort, hrest⟩
    unfold tcpInput tcpReadcb
    rw [hloop]
    dsimp only
    rw [if_neg (Nat.not_le.mpr hshort), map_append, ih rest hrest]
    rw [hpart, flatMap_append, append_assoc] at h
    exact append_cancel_left h

theorem tcpInput_frames (frames : List Frame) (appends : List (List UInt8))
    (h : appends.flatten = frames.flatMap Frame.octets)
    : tcpInput [] appends = frames.map Frame.text := by
  apply tcpInput_eq frames appends _ h
  intro f _
  cases f with
  | counted | line => simp [Frame.octets]

theorem tcpInput_frames_mixed
    : tcpInput [] [[50], [32, 97], [98, 99, 13], [10]] = [[97, 98], [99]] :=
  tcpInput_frames [.counted [50] [97, 98] (by simp [isdigit]) (by simp) rfl (by simp [logMaxline]),
    .line [99, 13] 10 (.inr rfl) (by simp) (by simp [isdigit]) (by simp [logMaxline])] _ rfl

end Syslogd
