import Mathlib.Data.List.GetD

namespace Buffer

open List

variable {α : Type}

def octet (mem : List UInt8) (off : Nat) : UInt8 :=
  mem.getD off 0

def slice (mem : List α) (off n : Nat) : List α :=
  (mem.drop off).take n

def write (mem : List α) (off : Nat) (data : List α) : List α :=
  mem.take off ++ data ++ mem.drop (off + data.length)

def move (mem : List α) (dst src n : Nat) : List α :=
  write mem dst (slice mem src n)

theorem octet_append_right (a b : List UInt8) (i : Nat) : octet (a ++ b) (a.length + i) = octet b i := by
  unfold octet
  rw [getD_append_right _ _ _ _ (by omega)]
  rw [Nat.add_sub_cancel_left]

variable {i off n : Nat} {mem : List α}

theorem octet_append_left (a b : List UInt8) (h : i < a.length) : octet (a ++ b) i = octet a i :=
  getD_append _ _ _ _ h

@[simp]
theorem octet_zero (x : UInt8) (l : List UInt8) : octet (x :: l) 0 = x := rfl

theorem slice_length_le (mem : List α) (off n : Nat) : (slice mem off n).length ≤ n := by
  simp only [slice, length_take]
  omega

theorem slice_length (h : off + n ≤ mem.length) : (slice mem off n).length = n := by
  simp only [slice, length_take, length_drop]
  omega

theorem slice_append (a b c : List α) : slice (a ++ b ++ c) a.length b.length = b := by
  simp [slice]

variable (a b : List α)

theorem slice_append_right (i n : Nat) : slice (a ++ b) (a.length + i) n = slice b i n := by
  unfold slice
  rw [drop_append, drop_eq_nil_of_le (by omega)]
  simp

theorem slice_append_left (h : i + n ≤ a.length) : slice (a ++ b) i n = slice a i n := by
  unfold slice
  rw [drop_append_of_le_length (by omega), take_append_of_le_length]
  simp only [length_drop]
  omega

theorem write_append {a b c d : List α} (hoff : off = a.length) (h : d.length = b.length)
    : write (a ++ b ++ c) off d = a ++ d ++ c := by
  subst hoff
  unfold write
  rw [h]
  simp

theorem write_append_right (i : Nat) (d : List α)
    : write (a ++ b) (a.length + i) d = a ++ write b i d := by
  unfold write
  rw [take_append, take_of_length_le (by omega)]
  rw [drop_append, drop_eq_nil_of_le (by omega)]
  simp only [Nat.add_sub_cancel_left, nil_append, append_assoc]
  have hsub : a.length + i + d.length - a.length = i + d.length := by omega
  rw [hsub]

theorem move_over (a b c d : List α)
    : move (a ++ (b ++ (c ++ d))) a.length (a.length + b.length) c.length
        = a ++ (c ++ (b ++ (c ++ d)).drop c.length) := by
  have hslice : slice (a ++ (b ++ (c ++ d))) (a.length + b.length) c.length = c := by
    rw [slice_append_right, ← append_assoc]
    exact slice_append b c d
  have hwrite := write_append_right a (b ++ (c ++ d)) 0 c
  rw [Nat.add_zero] at hwrite
  unfold move
  rw [hslice, hwrite]
  simp [write]

theorem write_length {data : List α} (h : off + data.length ≤ mem.length)
    : (write mem off data).length = mem.length := by
  simp only [write, length_append, length_take, length_drop]
  omega

end Buffer
