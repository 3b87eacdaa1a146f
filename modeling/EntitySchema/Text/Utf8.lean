/-!
# Byte sizes of texts

A text is a list of characters; offsets into it count the bytes of its UTF-8 form.

* `byteSize` — the number of bytes of a text; `byteSize_toList`: that of the string it makes up.
* `splitAtByte?` — the two parts of a text at a byte offset, if no character is cut.
* `IsBoundary` — the byte offsets at which no character is cut.
* `slice?` — the text between two byte offsets.
* **`splitAtByte?_eq_some_iff`**, **`slice?_eq_some_iff`**: both succeed exactly where no character
  is cut, and give the parts of the text.
-/

namespace EntitySchema.Text

/-- The number of bytes of the UTF-8 form of `cs`. -/
def byteSize : List Char → Nat
  | [] => 0
  | c :: cs => c.utf8Size + byteSize cs

@[simp] theorem byteSize_nil : byteSize [] = 0 := rfl

@[simp] theorem byteSize_cons (c : Char) (cs : List Char) :
    byteSize (c :: cs) = c.utf8Size + byteSize cs := rfl

@[simp] theorem byteSize_append (as bs : List Char) :
    byteSize (as ++ bs) = byteSize as + byteSize bs := by
  induction as with
  | nil => simp
  | cons c as ih => simp [ih, Nat.add_assoc]

theorem byteSize_eq_zero {cs : List Char} : byteSize cs = 0 ↔ cs = [] := by
  cases cs with
  | nil => simp
  | cons c cs => have := c.utf8Size_pos; simp; omega

theorem byteSize_toList (s : String) : byteSize s.toList = s.utf8ByteSize := by
  have h : ∀ cs : List Char, byteSize cs = (String.ofList cs).utf8ByteSize := by
    intro cs
    induction cs with
    | nil => simp
    | cons c cs ih =>
      have hcons : String.ofList (c :: cs) = String.singleton c ++ String.ofList cs := by
        rw [String.singleton_eq_ofList, ← String.ofList_append, List.singleton_append]
      rw [byteSize_cons, ih, hcons, String.utf8ByteSize_append, String.utf8ByteSize_singleton]
  rw [h, String.ofList_toList]

/-- Splits `cs` after its first `n` bytes; `none` if that lies past the end or in a character. -/
def splitAtByte? : List Char → Nat → Option (List Char × List Char)
  | cs, 0 => some ([], cs)
  | [], _ + 1 => none
  | c :: cs, n + 1 =>
    if c.utf8Size ≤ n + 1 then
      (splitAtByte? cs (n + 1 - c.utf8Size)).map fun p => (c :: p.1, p.2)
    else none

@[simp] theorem splitAtByte?_zero (cs : List Char) : splitAtByte? cs 0 = some ([], cs) := by
  cases cs <;> rfl

theorem splitAtByte?_byteSize_append (as bs : List Char) :
    splitAtByte? (as ++ bs) (byteSize as) = some (as, bs) := by
  induction as with
  | nil => simp
  | cons c as ih =>
    obtain ⟨n, hn⟩ : ∃ n, c.utf8Size + byteSize as = n + 1 :=
      ⟨_, (Nat.succ_pred_eq_of_pos (Nat.add_pos_left c.utf8Size_pos _)).symm⟩
    have hle : c.utf8Size ≤ n + 1 := by omega
    have hsub : n + 1 - c.utf8Size = byteSize as := by omega
    simp [hn, splitAtByte?, hle, hsub, ih]

theorem splitAtByte?_eq_some {cs as bs : List Char} {n : Nat}
    (h : splitAtByte? cs n = some (as, bs)) : cs = as ++ bs ∧ byteSize as = n := by
  fun_induction splitAtByte? cs n generalizing as with
  | case1 => simp_all
  | case2 => simp at h
  | case3 c cs n hle ih =>
    obtain ⟨⟨p, q⟩, hp, heq⟩ := Option.map_eq_some_iff.1 h
    obtain ⟨rfl, rfl⟩ := Prod.mk.inj heq
    obtain ⟨rfl, hsize⟩ := ih hp
    exact ⟨rfl, by simp [hsize]; omega⟩
  | case4 => simp at h

/-- **A text splits at an offset exactly into two parts of which the first has that many bytes.** -/
theorem splitAtByte?_eq_some_iff {cs as bs : List Char} {n : Nat} :
    splitAtByte? cs n = some (as, bs) ↔ cs = as ++ bs ∧ byteSize as = n :=
  ⟨splitAtByte?_eq_some, fun ⟨h, hn⟩ => by rw [h, ← hn, splitAtByte?_byteSize_append]⟩

/-- Whether byte `n` of `cs` lies between two characters, or at an end of the text. -/
def IsBoundary (cs : List Char) (n : Nat) : Prop := (splitAtByte? cs n).isSome

instance (cs : List Char) (n : Nat) : Decidable (IsBoundary cs n) :=
  inferInstanceAs (Decidable ((splitAtByte? cs n).isSome = true))

theorem isBoundary_iff {cs : List Char} {n : Nat} :
    IsBoundary cs n ↔ ∃ as bs, cs = as ++ bs ∧ byteSize as = n := by
  simp only [IsBoundary, Option.isSome_iff_exists, Prod.exists, splitAtByte?_eq_some_iff]

/-- The text from byte `start` up to byte `stop`; `none` if an end is misplaced or cuts a
character. -/
def slice? (cs : List Char) (start stop : Nat) : Option (List Char) :=
  (splitAtByte? cs stop).bind fun p => (splitAtByte? p.1 start).map (·.2)

/-- **The slice between two offsets is what stands between a part of the first size and a part that
makes up the second.** -/
theorem slice?_eq_some_iff {cs piece : List Char} {start stop : Nat} :
    slice? cs start stop = some piece ↔
      ∃ as bs, cs = as ++ piece ++ bs ∧ byteSize as = start ∧ byteSize (as ++ piece) = stop := by
  simp only [slice?, Option.bind_eq_some_iff, Option.map_eq_some_iff, Prod.exists,
    splitAtByte?_eq_some_iff]
  constructor
  · rintro ⟨as, bs, ⟨rfl, rfl⟩, as', piece', ⟨rfl, rfl⟩, rfl⟩
    exact ⟨as', bs, rfl, rfl, rfl⟩
  · rintro ⟨as, bs, rfl, rfl, rfl⟩
    exact ⟨as ++ piece, bs, ⟨rfl, rfl⟩, as, piece, ⟨rfl, rfl⟩, rfl⟩

end EntitySchema.Text
