import ObserverPattern.Trace.Basic

/-!
# Reading a trace from bytes

A text and its UTF-8 bytes are cut into the same lines, since the bytes of a line feed and of a
carriage return stand for nothing else.

* `lines_flatMap`: cutting a sequence into lines commutes with every encoding of its elements that
  spells the two line-end characters, and nothing else, with one element of their own;
* `ofBytes_toUTF8`: a trace read from the bytes of a text is the trace read from the text.
-/

namespace ObserverPattern.Text

variable {α β : Type} {encode : α → List β}

/-- An encoding spells an element by one of its own, which occurs in the encoding of no other. -/
structure Spells (encode : α → List β) (a : α) (b : β) : Prop where
  encode_self : encode a = [b]
  eq_of_mem : ∀ c, b ∈ encode c → c = a

/-- An encoding under which lines stay lines. -/
structure KeepsLines (encode : α → List β) (feed ret : α) (feed' ret' : β) : Prop where
  feed : Spells encode feed feed'
  ret : Spells encode ret ret'
  nonempty : ∀ c, encode c ≠ []

/-! ## Encoded lines -/

/-- The last element of an encoded sequence spells an element if the sequence ends with it. -/
theorem getLast?_flatMap {a : α} {b : β} (h : Spells encode a b) (hne : ∀ c, encode c ≠ []) (s : List α) :
    (s.flatMap encode).getLast? = some b ↔ s.getLast? = some a := by
  rcases List.eq_nil_or_concat s with rfl | ⟨s, c, rfl⟩
  · simp
  · obtain ⟨last, hlast⟩ := Option.ne_none_iff_exists'.1 (mt List.getLast?_eq_none_iff.1 (hne c))
    have hencoded : (s.concat c |>.flatMap encode).getLast? = (encode c).getLast? := by
      rw [List.concat_eq_append, List.flatMap_append, List.flatMap_singleton, List.getLast?_append,
        hlast, Option.some_or]
    rw [hencoded, List.concat_eq_append, List.getLast?_concat]
    constructor
    · intro hb
      rw [h.eq_of_mem c (List.mem_of_getLast? hb)]
    · intro hc
      obtain rfl := Option.some.inj hc
      simp [h.encode_self]

theorem dropLast_flatMap {a : α} {b : β} (h : Spells encode a b) {s : List α} (hs : s.getLast? = some a) :
    (s.flatMap encode).dropLast = s.dropLast.flatMap encode := by
  obtain ⟨s, rfl⟩ := List.getLast?_eq_some_iff.1 hs
  rw [List.flatMap_append, List.flatMap_singleton, h.encode_self, List.dropLast_concat, List.dropLast_concat]

variable [DecidableEq α] [DecidableEq β]

/-- A piece without a stop starts the first chunk. -/
theorem chunks_append {stop : β} {piece : List β} (hne : piece ≠ []) (hstop : stop ∉ piece) (s : List β) :
    chunks stop (piece ++ s) =
      match chunks stop s with
      | [] => [piece]
      | line :: rest => (piece ++ line) :: rest := by
  induction piece with
  | nil => exact absurd rfl hne
  | cons b piece ih =>
    rw [List.mem_cons, not_or] at hstop
    rw [List.cons_append, chunks, if_neg (Ne.symm hstop.1)]
    cases piece with
    | nil => rfl
    | cons b' piece =>
      rw [ih (by simp) hstop.2]
      cases chunks stop s <;> rfl

theorem chunks_flatMap {stop : α} {stop' : β} (hstop : Spells encode stop stop') (hne : ∀ c, encode c ≠ [])
    (s : List α) : chunks stop' (s.flatMap encode) = (chunks stop s).map (·.flatMap encode) := by
  induction s with
  | nil => rfl
  | cons c s ih =>
    rw [List.flatMap_cons]
    by_cases hc : c = stop
    · subst hc
      rw [hstop.encode_self, chunks, if_pos rfl, List.singleton_append, chunks, if_pos rfl, ih]
      simp [hstop.encode_self]
    · rw [chunks_append (hne c) fun hmem => hc (hstop.eq_of_mem c hmem), chunks, if_neg hc, ih]
      cases chunks stop s with
      | nil => simp
      | cons line rest => simp

theorem withoutEnd_flatMap {feed ret : α} {feed' ret' : β} (h : KeepsLines encode feed ret feed' ret')
    (line : List α) :
    withoutEnd feed' ret' (line.flatMap encode) = (withoutEnd feed ret line).flatMap encode := by
  unfold withoutEnd
  by_cases hfeed : line.getLast? = some feed
  · rw [if_pos ((getLast?_flatMap h.feed h.nonempty line).2 hfeed), if_pos hfeed, dropLast_flatMap h.feed hfeed]
    by_cases hret : line.dropLast.getLast? = some ret
    · simp only [if_pos ((getLast?_flatMap h.ret h.nonempty _).2 hret), if_pos hret, dropLast_flatMap h.ret hret]
    · simp only [if_neg (mt (getLast?_flatMap h.ret h.nonempty _).1 hret), if_neg hret]
  · rw [if_neg (mt (getLast?_flatMap h.feed h.nonempty line).1 hfeed), if_neg hfeed]

/-- The lines of an encoded sequence are the encoded lines of the sequence. -/
theorem lines_flatMap {feed ret : α} {feed' ret' : β} (h : KeepsLines encode feed ret feed' ret') (s : List α) :
    lines feed' ret' (s.flatMap encode) = (lines feed ret s).map (·.flatMap encode) := by
  rw [lines, lines, chunks_flatMap h.feed h.nonempty, List.map_map, List.map_map]
  exact List.map_congr_left fun line _ => withoutEnd_flatMap h line

/-- The bytes of a character are all above 127, or there is one byte with the number of the character. -/
theorem mem_utf8EncodeChar {c : Char} {b : UInt8} (hb : b ∈ String.utf8EncodeChar c) :
    128 ≤ b.toNat ∨ String.utf8EncodeChar c = [b] ∧ b.toNat = c.toNat := by
  unfold String.utf8EncodeChar at hb ⊢
  simp only at hb ⊢
  have hc : c.val.toNat = c.toNat := rfl
  split at hb
  · next hsmall =>
    obtain rfl := List.mem_singleton.1 hb
    refine .inr ⟨if_pos hsmall, ?_⟩
    rw [UInt8.toNat_ofNat']
    omega
  · -- Each byte of a longer encoding has its highest bit set.
    have high : ∀ n, 128 ≤ n → n < 256 → b = UInt8.ofNat n → 128 ≤ b.toNat := by
      rintro n hn hn' rfl
      rwa [UInt8.toNat_ofNat', Nat.mod_eq_of_lt hn']
    left
    split at hb
    · simp only [List.mem_cons, List.not_mem_nil, or_false] at hb
      rcases hb with hb | hb <;> exact high _ (by omega) (by omega) hb
    · split at hb <;> simp only [List.mem_cons, List.not_mem_nil, or_false] at hb
      · rcases hb with hb | hb | hb <;> exact high _ (by omega) (by omega) hb
      · rcases hb with hb | hb | hb | hb <;> exact high _ (by omega) (by omega) hb

/-- In UTF-8 a byte below 128 stands for the character of that number and for nothing else. -/
theorem spells_utf8EncodeChar {a : Char} {b : UInt8} (ha : String.utf8EncodeChar a = [b]) (hb : b.toNat < 128) :
    Spells String.utf8EncodeChar a b where
  encode_self := ha
  eq_of_mem c hc := by
    have hself : b ∈ String.utf8EncodeChar a := by simp [ha]
    rcases mem_utf8EncodeChar hc with h | ⟨-, h⟩
    · omega
    · rcases mem_utf8EncodeChar hself with h' | ⟨-, h'⟩
      · omega
      · exact Char.toNat_inj.1 (h.symm.trans h')

/-- UTF-8 keeps the lines of a text. -/
theorem keepsLines_utf8EncodeChar : KeepsLines String.utf8EncodeChar '\n' '\r' 10 13 where
  feed := spells_utf8EncodeChar (by decide) (by decide)
  ret := spells_utf8EncodeChar (by decide) (by decide)
  nonempty c h := by
    have hlength := String.length_utf8EncodeChar c
    rw [h] at hlength
    exact absurd hlength.symm (Nat.pos_iff_ne_zero.1 c.utf8Size_pos)

end ObserverPattern.Text

namespace ObserverPattern.Trace

/-- The bytes of a text are the text in UTF-8, and nothing else is decoded to it. -/
private theorem fromUTF8?_utf8EncodeChar (l : List Char) :
    String.fromUTF8? ⟨(l.flatMap String.utf8EncodeChar).toArray⟩ = some (String.ofList l) := by
  have hbytes : (⟨(l.flatMap String.utf8EncodeChar).toArray⟩ : ByteArray) = l.utf8Encode :=
    ByteArray.ext List.data_toByteArray.symm
  rw [hbytes, String.fromUTF8?, dif_pos (.intro l rfl)]
  rfl

theorem linesOfBytes_toUTF8 (s : String) : linesOfBytes s.toUTF8 = (linesOfText s).map some := by
  have hbytes : s.toUTF8.data.toList = s.toList.flatMap String.utf8EncodeChar := by
    rw [String.toUTF8, ← String.utf8Encode_toList, List.utf8Encode, List.data_toByteArray]
  rw [linesOfBytes, linesOfText, hbytes, Text.lines_flatMap Text.keepsLines_utf8EncodeChar, List.map_map,
    List.map_map]
  exact List.map_congr_left fun line _ => fromUTF8?_utf8EncodeChar line

/-- A trace read from the bytes of a text is the trace read from the text, or fails alike. -/
theorem ofBytes_toUTF8 (c : Conventions) (s : String) : ofBytes c s.toUTF8 = ofText c s := by
  rw [ofBytes, ofText, linesOfBytes_toUTF8]

end ObserverPattern.Trace
