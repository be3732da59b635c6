import Mathlib

/-! Decoding UTF-8, with a replacement character for the longest start of what is no character. -/

namespace VivimOmega.Library.Utf8

/-- A character whose first bytes were read, and the range its next byte is in. -/
structure Partial where
  codePoint : ℕ
  remaining : ℕ
  lower : ℕ := 0x80
  upper : ℕ := 0xBF

/-- What a byte at the start of a character gives. -/
def lead (b : ℕ) : List Char × Option Partial :=
  if b < 0x80 then ([Char.ofNat b], none)
  else if 0xC2 ≤ b ∧ b ≤ 0xDF then ([], some { codePoint := b % 0x20, remaining := 1 })
  else if b = 0xE0 then ([], some { codePoint := 0, remaining := 2, lower := 0xA0 })
  else if b = 0xED then ([], some { codePoint := 0xD, remaining := 2, upper := 0x9F })
  else if 0xE1 ≤ b ∧ b ≤ 0xEF then ([], some { codePoint := b % 0x10, remaining := 2 })
  else if b = 0xF0 then ([], some { codePoint := 0, remaining := 3, lower := 0x90 })
  else if b = 0xF4 then ([], some { codePoint := 4, remaining := 3, upper := 0x8F })
  else if 0xF1 ≤ b ∧ b ≤ 0xF3 then ([], some { codePoint := b % 8, remaining := 3 })
  else (['\uFFFD'], none)

def decodeFrom : Option Partial → List UInt8 → List Char
  | none, [] => []
  | some _, [] => ['\uFFFD']
  | none, b :: rest => (lead b.toNat).1 ++ decodeFrom (lead b.toNat).2 rest
  | some p, b :: rest =>
    if p.lower ≤ b.toNat ∧ b.toNat ≤ p.upper then
      let codePoint := p.codePoint * 0x40 + b.toNat % 0x40
      if p.remaining = 1 then Char.ofNat codePoint :: decodeFrom none rest
      else decodeFrom (some { codePoint, remaining := p.remaining - 1 }) rest
    else '\uFFFD' :: (lead b.toNat).1 ++ decodeFrom (lead b.toNat).2 rest

def decode (bytes : List UInt8) : String := String.ofList (decodeFrom none bytes)

example : decode [0x61, 0xE2, 0x82, 0xAC, 0xC3, 0x62] = "a€\uFFFDb" := by decide

lemma encoded_eq (s : String) :
    s.toByteArray.data.toList = s.toList.flatMap String.utf8EncodeChar := by
  rw [← String.utf8Encode_toList, List.utf8Encode]
  simp

section Streams

/-- Decoding a part of a stream: the characters that it completes, and the one that it leaves open. -/
def feed : Option Partial → List UInt8 → List Char × Option Partial
  | p, [] => ([], p)
  | none, b :: rest => ((lead b.toNat).1 ++ (feed (lead b.toNat).2 rest).1, (feed (lead b.toNat).2 rest).2)
  | some p, b :: rest =>
    if p.lower ≤ b.toNat ∧ b.toNat ≤ p.upper then
      let codePoint := p.codePoint * 0x40 + b.toNat % 0x40
      if p.remaining = 1 then (Char.ofNat codePoint :: (feed none rest).1, (feed none rest).2)
      else feed (some { codePoint, remaining := p.remaining - 1 }) rest
    else ('\uFFFD' :: (lead b.toNat).1 ++ (feed (lead b.toNat).2 rest).1, (feed (lead b.toNat).2 rest).2)

/-- What stands for a character that stays open. -/
def flush : Option Partial → List Char
  | none => []
  | some _ => ['\uFFFD']

variable {p q : Option Partial} {bytes more : List UInt8}

lemma feed_append (p : Option Partial) (bytes more : List UInt8) :
    feed p (bytes ++ more) = ((feed p bytes).1 ++ (feed (feed p bytes).2 more).1, (feed (feed p bytes).2 more).2) := by
  induction p, bytes using feed.induct with
  | case1 p => simp [feed]
  | case2 b rest ih => simp [feed, ih]
  | case3 p b rest h h1 ih => simp [feed, h, h1, ih]
  | case4 p b rest h codePoint h1 ih => simp [feed, h, h1, ih, codePoint]
  | case5 p b rest h ih => simp only [List.cons_append, feed, if_neg h, ih, List.append_assoc]

lemma decodeFrom_eq (p : Option Partial) (bytes : List UInt8) :
    decodeFrom p bytes = (feed p bytes).1 ++ flush (feed p bytes).2 := by
  induction p, bytes using feed.induct with
  | case1 p => cases p <;> rfl
  | case2 b rest ih => simp [feed, decodeFrom, ih]
  | case3 p b rest h h1 ih => simp [feed, decodeFrom, h, h1, ih]
  | case4 p b rest h codePoint h1 ih => simp [feed, decodeFrom, h, h1, ih, codePoint]
  | case5 p b rest h ih => simp [feed, decodeFrom, h, ih]

end Streams

section Characters

variable {p : Partial} {k n : ℕ} {c : Char} {rest : List UInt8}

/-- The bytes that an open character still takes, all in their ranges. -/
inductive Completes : Partial → List UInt8 → Char → Prop
  | last {p : Partial} {b : UInt8} (hrange : p.lower ≤ b.toNat ∧ b.toNat ≤ p.upper) (hone : p.remaining = 1) :
    Completes p [b] (Char.ofNat (p.codePoint * 0x40 + b.toNat % 0x40))
  | more {p : Partial} {b : UInt8} {bytes : List UInt8} {c : Char}
    (hrange : p.lower ≤ b.toNat ∧ b.toNat ≤ p.upper) (hmany : p.remaining ≠ 1)
    (hrest : Completes { codePoint := p.codePoint * 0x40 + b.toNat % 0x40, remaining := p.remaining - 1 } bytes c) :
    Completes p (b :: bytes) c

lemma completes_last (hk : k < 0x40) :
    Completes { codePoint := n, remaining := 1 } [UInt8.ofNat (k + 0x80)] (Char.ofNat (n * 0x40 + k)) := by
  have hbyte : (UInt8.ofNat (k + 0x80)).toNat = k + 0x80 := by
    rw [UInt8.toNat_ofNat']
    omega
  have hlow : (k + 0x80) % 0x40 = k := by omega
  have hlast := Completes.last (p := { codePoint := n, remaining := 1 }) (b := UInt8.ofNat (k + 0x80))
    (by rw [hbyte]; exact ⟨by dsimp only; omega, by dsimp only; omega⟩) rfl
  rwa [hbyte, hlow] at hlast

lemma completes_next {r : ℕ} (hk : k < 0x40) (hlower : p.lower ≤ k + 0x80) (hupper : k + 0x80 ≤ p.upper)
    (hremaining : p.remaining = r + 2)
    (hrest : Completes { codePoint := p.codePoint * 0x40 + k, remaining := r + 1 } rest c) :
    Completes p (UInt8.ofNat (k + 0x80) :: rest) c := by
  have hbyte : (UInt8.ofNat (k + 0x80)).toNat = k + 0x80 := by
    rw [UInt8.toNat_ofNat']
    omega
  have hlow : (k + 0x80) % 0x40 = k := by omega
  refine .more (by rw [hbyte]; exact ⟨hlower, hupper⟩) (by omega) ?_
  rw [hbyte, hlow, hremaining]
  exact hrest

lemma lead_two (hk : 2 ≤ k) (hlt : k < 0x20) :
    lead (k + 0xC0) = ([], some { codePoint := k, remaining := 1 }) := by
  have hrange : 0xC2 ≤ k + 0xC0 ∧ k + 0xC0 ≤ 0xDF := by omega
  have hlow : (k + 0xC0) % 0x20 = k := by omega
  rw [lead, if_neg (by omega), if_pos hrange, hlow]

/-- Three bytes, of which the second says that the encoding is no longer than it must be and no surrogate. -/
lemma lead_three (hlt : k < 0x10) {m : ℕ} (hm : m < 0x40) (hshort : k = 0 → 0x20 ≤ m)
    (hsurrogate : k = 0xD → m < 0x20) :
    ∃ p, lead (k + 0xE0) = ([], some p) ∧ p.codePoint = k ∧ p.remaining = 2 ∧
      p.lower ≤ m + 0x80 ∧ m + 0x80 ≤ p.upper ∧ 0x80 ≤ p.lower ∧ p.upper ≤ 0xBF := by
  unfold lead
  split_ifs with h1 h2 h3 h4 h5
  · omega
  · omega
  · exact ⟨_, rfl, by dsimp only; omega, rfl, by dsimp only; omega, by dsimp only; omega, by dsimp only; omega, by dsimp only; omega⟩
  · exact ⟨_, rfl, by dsimp only; omega, rfl, by dsimp only; omega, by dsimp only; omega, by dsimp only; omega, by dsimp only; omega⟩
  · exact ⟨_, rfl, by dsimp only; omega, rfl, by dsimp only; omega, by dsimp only; omega, by dsimp only; omega, by dsimp only; omega⟩
  all_goals omega

lemma lead_four (hlt : k < 5) {m : ℕ} (hm : m < 0x40) (hshort : k = 0 → 0x10 ≤ m)
    (hrange : k = 4 → m < 0x10) :
    ∃ p, lead (k + 0xF0) = ([], some p) ∧ p.codePoint = k ∧ p.remaining = 3 ∧
      p.lower ≤ m + 0x80 ∧ m + 0x80 ≤ p.upper ∧ 0x80 ≤ p.lower ∧ p.upper ≤ 0xBF := by
  unfold lead
  split_ifs with h1 h2 h3 h4 h5 h6 h7 h8
  iterate 5 omega
  · exact ⟨_, rfl, by dsimp only; omega, rfl, by dsimp only; omega, by dsimp only; omega, by dsimp only; omega, by dsimp only; omega⟩
  · exact ⟨_, rfl, by dsimp only; omega, rfl, by dsimp only; omega, by dsimp only; omega, by dsimp only; omega, by dsimp only; omega⟩
  · exact ⟨_, rfl, by dsimp only; omega, rfl, by dsimp only; omega, by dsimp only; omega, by dsimp only; omega, by dsimp only; omega⟩
  · omega

/-- A character is one byte of its own, or a byte that opens it and those that complete it. -/
lemma encodeChar_cases (c : Char) :
    (∃ b, String.utf8EncodeChar c = [b] ∧ lead b.toNat = ([c], none)) ∨
      ∃ b rest p, String.utf8EncodeChar c = b :: rest ∧ lead b.toNat = ([], some p) ∧ 0x80 ≤ p.lower ∧
        p.upper ≤ 0xBF ∧ Completes p rest c := by
  obtain ⟨v, hv⟩ : ∃ v, c.val.toNat = v := ⟨_, rfl⟩
  have hchar : Char.ofNat v = c := by
    rw [← hv]
    exact Char.ofNat_toNat c
  have hvalid : v < 0xD800 ∨ 0xDFFF < v ∧ v < 0x110000 := by
    rw [← hv]
    exact c.valid
  have hbyte : ∀ n < 0x100, (UInt8.ofNat n).toNat = n := by
    intro n hn
    rw [UInt8.toNat_ofNat']
    omega
  unfold String.utf8EncodeChar
  simp only [hv]
  split_ifs with h1 h2 h3
  · refine Or.inl ⟨_, rfl, ?_⟩
    rw [hbyte v (by omega), lead, if_pos (by omega), hchar]
  · have hpoint : v / 64 * 0x40 + v % 0x40 = v := by omega
    have hlast := completes_last (n := v / 64) (k := v % 0x40) (by omega)
    rw [hpoint, hchar] at hlast
    rw [Nat.mod_eq_of_lt (by omega : v / 64 < 0x20)]
    refine Or.inr ⟨_, _, _, rfl, ?_, le_refl 0x80, le_refl 0xBF, hlast⟩
    rw [hbyte _ (by omega), lead_two (by omega) (by omega)]
  · obtain ⟨p, hlead, hcode, hremaining, hlower, hupper, hbounds⟩ :=
      lead_three (k := v / 4096) (m := v / 64 % 0x40) (by omega) (by omega) (by omega) (by omega)
    have hpoint : (v / 4096 * 0x40 + v / 64 % 0x40) * 0x40 + v % 0x40 = v := by omega
    have hlast := completes_last (n := v / 4096 * 0x40 + v / 64 % 0x40) (k := v % 0x40) (by omega)
    rw [hpoint, hchar] at hlast
    rw [Nat.mod_eq_of_lt (by omega : v / 4096 < 0x10)]
    refine Or.inr ⟨_, _, p, rfl, ?_, hbounds.1, hbounds.2, completes_next (by omega) hlower hupper hremaining ?_⟩
    · rw [hbyte _ (by omega), hlead]
    · rw [hcode]
      exact hlast
  · obtain ⟨p, hlead, hcode, hremaining, hlower, hupper, hbounds⟩ :=
      lead_four (k := v / 262144) (m := v / 4096 % 0x40) (by omega) (by omega) (by omega) (by omega)
    have hpoint : ((v / 262144 * 0x40 + v / 4096 % 0x40) * 0x40 + v / 64 % 0x40) * 0x40 + v % 0x40 = v := by
      omega
    have hlast := completes_last (n := (v / 262144 * 0x40 + v / 4096 % 0x40) * 0x40 + v / 64 % 0x40) (k := v % 0x40)
      (by omega)
    rw [hpoint, hchar] at hlast
    rw [Nat.mod_eq_of_lt (by omega : v / 262144 < 0x08)]
    refine Or.inr ⟨_, _, p, rfl, ?_, hbounds.1, hbounds.2, completes_next (by omega) hlower hupper hremaining ?_⟩
    · rw [hbyte _ (by omega), hlead]
    · rw [hcode]
      exact completes_next (by omega) (by dsimp only; omega) (by dsimp only; omega) rfl hlast

lemma Completes.feed (h : Completes p rest c) : Utf8.feed (some p) rest = ([c], none) := by
  induction h with
  | last hrange hone => simp [Utf8.feed, hrange, hone]
  | more hrange hmany _ ih => simp only [Utf8.feed, if_pos hrange, if_neg hmany, ih]

lemma feed_char (c : Char) : feed none (String.utf8EncodeChar c) = ([c], none) := by
  obtain ⟨b, hbytes, hlead⟩ | ⟨b, rest, p, hbytes, hlead, _, _, hrest⟩ := encodeChar_cases c
  · rw [hbytes, feed, hlead]
    rfl
  · rw [hbytes, feed, hlead, hrest.feed]
    rfl

lemma feed_encoded (cs : List Char) : feed none (cs.flatMap String.utf8EncodeChar) = (cs, none) := by
  induction cs with
  | nil => rfl
  | cons c cs ih => rw [List.flatMap_cons, feed_append, feed_char, ih, List.singleton_append]

lemma decodeFrom_encoded (cs : List Char) : decodeFrom none (cs.flatMap String.utf8EncodeChar) = cs := by
  rw [decodeFrom_eq, feed_encoded]
  exact List.append_nil cs

/-- What was encoded decodes to itself. -/
theorem decode_encoded (s : String) : decode s.toByteArray.data.toList = s := by
  rw [decode, encoded_eq, decodeFrom_encoded, String.ofList_toList]

end Characters

section Chunks

variable {cs : List Char} {bytes a b : List UInt8} {chunks : List (List UInt8)}

/-- The text that one gets from decoding each chunk by itself. -/
def decodeChunks (chunks : List (List UInt8)) : List Char := chunks.flatMap (decodeFrom none)

def encode (cs : List Char) : List UInt8 := cs.flatMap String.utf8EncodeChar

/-- A chunk that neither starts nor ends inside a character. -/
def Aligned (chunk : List UInt8) : Prop := ∃ cs, chunk = encode cs

instance decidableAligned (chunk : List UInt8) : Decidable (Aligned chunk) :=
  decidable_of_iff (encode (decodeFrom none chunk) = chunk) (by
    refine ⟨fun h => ⟨_, h.symm⟩, ?_⟩
    rintro ⟨cs, rfl⟩
    exact congrArg encode (decodeFrom_encoded cs))

def Continues (b : UInt8) : Prop := 0x80 ≤ b.toNat ∧ b.toNat ≤ 0xBF

lemma encode_injective : Function.Injective encode := by
  intro cs ds h
  have hfeed := congrArg (feed none) h
  unfold encode at hfeed
  rw [feed_encoded, feed_encoded] at hfeed
  exact congrArg Prod.fst hfeed

lemma encode_append (cs ds : List Char) : encode (cs ++ ds) = encode cs ++ encode ds := List.flatMap_append

lemma decodeFrom_encode_append (cs : List Char) (bytes : List UInt8) :
    decodeFrom none (encode cs ++ bytes) = cs ++ decodeFrom none bytes := by
  rw [decodeFrom_eq, feed_append, encode, feed_encoded, decodeFrom_eq, List.append_assoc]

/-- Bytes that continue nothing are replaced one by one. -/
lemma decodeFrom_continuing (hb : ∀ x ∈ b, Continues x) (bytes : List UInt8) :
    decodeFrom none (b ++ bytes) = List.replicate b.length '\uFFFD' ++ decodeFrom none bytes := by
  induction b with
  | nil => rfl
  | cons x b ih =>
    obtain ⟨hx, hb⟩ := List.forall_mem_cons.mp hb
    have hlead : lead x.toNat = (['\uFFFD'], none) := by
      obtain ⟨hlow, hhigh⟩ := hx
      unfold lead
      split_ifs <;> first | rfl | omega
    rw [List.cons_append, decodeFrom, hlead, ih hb]
    rfl

/-- An open character that is cut again stays open, and the rest goes on with continuing bytes. -/
lemma Completes.cut {p : Partial} {c : Char} (h : Completes p bytes c) (hlower : 0x80 ≤ p.lower)
    (hupper : p.upper ≤ 0xBF) (hsplit : bytes = a ++ b) (hb : b ≠ []) :
    (∃ q, Utf8.feed (some p) a = ([], some q)) ∧ ∀ x ∈ b, Continues x := by
  induction h generalizing a b with
  | @last p x hrange hone =>
    cases a with
    | nil =>
      obtain rfl : [x] = b := hsplit
      refine ⟨⟨p, rfl⟩, ?_⟩
      simp only [List.forall_mem_singleton]
      exact ⟨hlower.trans hrange.1, hrange.2.trans hupper⟩
    | cons y a =>
      obtain ⟨_, hnil⟩ := List.cons.inj hsplit
      exact absurd (List.append_eq_nil_iff.mp hnil.symm).2 hb
  | @more p x rest c hrange hmany hrest ih =>
    cases a with
    | nil =>
      obtain rfl : x :: rest = b := hsplit
      have hne : rest ≠ [] := by cases hrest <;> exact List.cons_ne_nil _ _
      refine ⟨⟨p, rfl⟩, List.forall_mem_cons.mpr ⟨⟨hlower.trans hrange.1, hrange.2.trans hupper⟩, ?_⟩⟩
      exact (ih (le_refl 0x80) (le_refl 0xBF) (List.nil_append rest).symm hne).2
    | cons y a =>
      obtain ⟨rfl, hrest'⟩ := List.cons.inj hsplit
      obtain ⟨⟨q, hq⟩, hcont⟩ := ih (le_refl 0x80) (le_refl 0xBF) hrest' hb
      exact ⟨⟨q, by simp only [Utf8.feed, if_pos hrange, if_neg hmany, hq]⟩, hcont⟩

/-- A cut inside a character leaves it open, with continuing bytes behind. -/
lemma char_cut (c : Char) (h : String.utf8EncodeChar c = a ++ b) (ha : a ≠ []) (hb : b ≠ []) :
    (∃ q, feed none a = ([], some q)) ∧ ∀ x ∈ b, Continues x := by
  obtain ⟨x, hbytes, _⟩ | ⟨x, rest, p, hbytes, hlead, hlower, hupper, hrest⟩ := encodeChar_cases c
  · rw [hbytes] at h
    cases a with
    | nil => exact absurd rfl ha
    | cons y a => exact absurd (List.append_eq_nil_iff.mp (List.cons.inj h).2.symm).2 hb
  · rw [hbytes] at h
    cases a with
    | nil => exact absurd rfl ha
    | cons y a =>
      obtain ⟨rfl, hsplit⟩ := List.cons.inj h
      obtain ⟨⟨q, hq⟩, hcont⟩ := hrest.cut hlower hupper hsplit hb
      exact ⟨⟨q, by simp only [feed, hlead, hq, List.append_nil]⟩, hcont⟩

/-- Only characters beyond ASCII can be cut. -/
lemma char_cut_high (c : Char) (h : String.utf8EncodeChar c = a ++ b) (ha : a ≠ []) (hb : b ≠ []) :
    0x80 ≤ c.toNat := by
  by_contra hlow
  have hone : (String.utf8EncodeChar c).length = 1 := by
    rw [String.length_utf8EncodeChar, Char.utf8Size_eq_one_iff]
    exact Nat.le_of_lt_succ (Nat.not_le.mp hlow)
  have ha' := List.length_pos_iff.mpr ha
  have hb' := List.length_pos_iff.mpr hb
  rw [h, List.length_append] at hone
  omega

lemma decodeFrom_open {q : Partial} (h : feed none a = ([], some q)) : decodeFrom none a = ['\uFFFD'] := by
  rw [decodeFrom_eq, h]
  rfl

/-- A prefix of encoded text ends between two characters or inside one. -/
lemma encode_cut (h : encode cs = a ++ b) :
    (∃ ds es, cs = ds ++ es ∧ a = encode ds ∧ b = encode es) ∨
      ∃ ds c es x y, cs = ds ++ c :: es ∧ String.utf8EncodeChar c = x ++ y ∧ x ≠ [] ∧ y ≠ [] ∧
        a = encode ds ++ x ∧ b = y ++ encode es := by
  induction cs generalizing a with
  | nil =>
    obtain ⟨rfl, rfl⟩ := List.append_eq_nil_iff.mp h.symm
    exact Or.inl ⟨[], [], rfl, rfl, rfl⟩
  | cons c cs ih =>
    have hcons : encode (c :: cs) = String.utf8EncodeChar c ++ encode cs := List.flatMap_cons
    rw [hcons, List.append_eq_append_iff] at h
    obtain ⟨rest, rfl, hrest⟩ | ⟨y, hchar, rfl⟩ := h
    · obtain ⟨ds, es, rfl, rfl, rfl⟩ | ⟨ds, d, es, x, y, rfl, hd, hx, hy, rfl, rfl⟩ := ih hrest
      · exact Or.inl ⟨c :: ds, es, rfl, rfl, rfl⟩
      · refine Or.inr ⟨c :: ds, d, es, x, y, rfl, hd, hx, hy, ?_, rfl⟩
        exact (List.append_assoc _ _ _).symm
    · cases y with
      | nil => exact Or.inl ⟨[c], cs, rfl, by simpa [encode] using hchar.symm, rfl⟩
      | cons y0 y =>
        cases a with
        | nil => exact Or.inl ⟨[], c :: cs, rfl, rfl, by rw [hcons, hchar]; rfl⟩
        | cons x0 x =>
          exact Or.inr ⟨[], c, cs, x0 :: x, y0 :: y, rfl, hchar, List.cons_ne_nil _ _, List.cons_ne_nil _ _, rfl, rfl⟩

/-- Whatever the chunks, no character gets lost, and what a cut one leaves behind counts once more. -/
lemma decodeChunks_length (h : chunks.flatten = b ++ encode cs) (hb : ∀ x ∈ b, Continues x) :
    (if b = [] then 0 else 1) + cs.length ≤ (decodeChunks chunks).length := by
  induction chunks generalizing b cs with
  | nil =>
    obtain ⟨rfl, hcs⟩ := List.append_eq_nil_iff.mp h.symm
    obtain rfl : cs = [] := encode_injective (hcs.trans rfl)
    exact Nat.le_refl 0
  | cons chunk rest ih =>
    have hlength : (decodeChunks (chunk :: rest)).length =
        (decodeFrom none chunk).length + (decodeChunks rest).length := by
      rw [decodeChunks, List.flatMap_cons, List.length_append]
      rfl
    rw [List.flatten_cons, List.append_eq_append_iff] at h
    rw [hlength]
    obtain ⟨y, rfl, hrest⟩ | ⟨y, rfl, hrest⟩ := h
    · have hdecode := decodeFrom_continuing (fun x hx => hb x (List.mem_append_left _ hx)) []
      have hall := ih hrest fun x hx => hb x (List.mem_append_right _ hx)
      rw [List.append_nil] at hdecode
      rw [hdecode, decodeFrom, List.append_nil, List.length_replicate]
      cases chunk with
      | nil => simpa using hall
      | cons x chunk =>
        rw [if_neg (by simp), List.length_cons]
        omega
    · have hdecode := decodeFrom_continuing hb y
      rw [hdecode, List.length_append, List.length_replicate]
      have hone : (if b = [] then 0 else 1) ≤ b.length := by
        cases b <;> simp
      obtain ⟨ds, es, rfl, rfl, hes⟩ | ⟨ds, c, es, x, z, rfl, hc, hx, hz, rfl, hes⟩ := encode_cut hrest
      · have hall := ih (b := []) hes (by simp)
        rw [encode, decodeFrom_encoded, List.length_append]
        simp only [if_true] at hall
        omega
      · obtain ⟨⟨q, hopen⟩, hcont⟩ := char_cut c hc hx hz
        have hall := ih hes hcont
        rw [if_neg hz] at hall
        rw [decodeFrom_encode_append, decodeFrom_open hopen, List.length_append, List.length_append, List.length_cons]
        simp only [List.length_cons, List.length_nil]
        omega

/-- Decoding chunk by chunk gives back the text just where no cut is inside a character. -/
theorem decodeChunks_iff (h : chunks.flatten = encode cs) :
    decodeChunks chunks = cs ↔ ∀ chunk ∈ chunks, Aligned chunk := by
  induction chunks generalizing cs with
  | nil =>
    obtain rfl : cs = [] := encode_injective h.symm
    exact iff_of_true rfl (by simp)
  | cons chunk rest ih =>
    have hdecode : decodeChunks (chunk :: rest) = decodeFrom none chunk ++ decodeChunks rest := List.flatMap_cons
    rw [List.flatten_cons] at h
    rw [List.forall_mem_cons, hdecode]
    obtain ⟨ds, es, rfl, rfl, hes⟩ | ⟨ds, c, es, x, y, rfl, hc, hx, hy, rfl, hes⟩ := encode_cut h.symm
    · rw [encode, decodeFrom_encoded, List.append_cancel_left_eq, ih hes]
      exact (and_iff_right ⟨ds, rfl⟩).symm
    · obtain ⟨⟨q, hopen⟩, hcont⟩ := char_cut c hc hx hy
      have hlength := decodeChunks_length hes hcont
      refine iff_of_false (fun heq => ?_) (fun haligned => ?_)
      · have hcount := congrArg List.length heq
        rw [if_neg hy] at hlength
        rw [decodeFrom_encode_append, decodeFrom_open hopen] at hcount
        simp only [List.length_append, List.length_cons, List.length_nil] at hcount
        omega
      · obtain ⟨⟨fs, hfs⟩, _⟩ := haligned
        have hfeed := congrArg (fun bytes => (feed none bytes).2) hfs
        simp only [feed_append, encode, feed_encoded, hopen] at hfeed
        cases hfeed

/-- A decoder that keeps what is open loses nothing, however the bytes are cut. -/
theorem feed_chunks (p : Option Partial) (chunks : List (List UInt8)) :
    chunks.foldl (fun s chunk => (s.1 ++ (feed s.2 chunk).1, (feed s.2 chunk).2)) ([], p) = feed p chunks.flatten := by
  suffices h : ∀ (text : List Char) (p : Option Partial),
      chunks.foldl (fun s chunk => (s.1 ++ (feed s.2 chunk).1, (feed s.2 chunk).2)) (text, p) =
        (text ++ (feed p chunks.flatten).1, (feed p chunks.flatten).2) from h [] p
  induction chunks with
  | nil => intro text p; simp [feed]
  | cons chunk rest ih =>
    intro text p
    rw [List.foldl_cons, ih, List.flatten_cons, feed_append, List.append_assoc]

lemma decodeChunks_nil (h : chunks.flatten = []) : decodeChunks chunks = [] := by
  rw [decodeChunks, List.flatMap_eq_nil_iff]
  intro chunk hchunk
  rw [List.flatten_eq_nil_iff.mp h chunk hchunk]
  rfl

/-- The parts of the chunks that lie within the first `n` bytes, and those beyond. -/
def within : ℕ → List (List UInt8) → List (List UInt8)
  | _, [] => []
  | n, chunk :: rest => chunk.take n :: within (n - chunk.length) rest

def beyond : ℕ → List (List UInt8) → List (List UInt8)
  | _, [] => []
  | n, chunk :: rest => chunk.drop n :: beyond (n - chunk.length) rest

lemma flatten_within (n : ℕ) (chunks : List (List UInt8)) : (within n chunks).flatten = chunks.flatten.take n := by
  induction chunks generalizing n with
  | nil => simp [within]
  | cons chunk rest ih => rw [within, List.flatten_cons, List.flatten_cons, ih, List.take_append]

lemma within_all {n : ℕ} (h : chunks.flatten.length ≤ n) : within n chunks = chunks ∧ decodeChunks (beyond n chunks) = [] := by
  induction chunks generalizing n with
  | nil => exact ⟨rfl, rfl⟩
  | cons chunk rest ih =>
    rw [List.flatten_cons, List.length_append] at h
    obtain ⟨hwithin, hbeyond⟩ := ih (n := n - chunk.length) (by omega)
    refine ⟨by rw [within, hwithin, List.take_of_length_le (by omega)], ?_⟩
    rw [beyond, List.drop_of_length_le (by omega), decodeChunks, List.flatMap_cons]
    exact hbeyond

lemma feed_lower {q : Partial} (start : Option Partial) (hstart : ∀ p ∈ start, 0x80 ≤ p.lower)
    (h : (feed start bytes).2 = some q) : 0x80 ≤ q.lower := by
  have hlead : ∀ n, ∀ p ∈ (lead n).2, 0x80 ≤ p.lower := by
    intro n p hp
    unfold lead at hp
    split_ifs at hp <;> cases hp <;> simp
  induction start, bytes using feed.induct with
  | case1 start => exact hstart q h
  | case2 b rest ih => exact ih (hlead _) h
  | case3 p b rest hrange hone ih =>
    simp only [feed, if_pos hrange, if_pos hone] at h
    exact ih (by simp) h
  | case4 p b rest hrange codePoint hone ih =>
    simp only [feed, if_pos hrange, if_neg hone] at h
    refine ih ?_ h
    rintro r ⟨rfl⟩
    exact le_refl 0x80
  | case5 p b rest hrange ih =>
    simp only [feed, if_neg hrange] at h
    exact ih (hlead _) h

/-- Nothing is open behind a byte of ASCII. -/
lemma feed_ascii {x : UInt8} (hlast : bytes.getLast? = some x) (hx : x.toNat < 0x80) : (feed none bytes).2 = none := by
  obtain ⟨front, rfl⟩ := List.getLast?_eq_some_iff.mp hlast
  have hlead : (lead x.toNat).2 = none := by
    unfold lead
    rw [if_pos hx]
  rw [feed_append]
  cases hopen : (feed none front).2 with
  | none => simp only [feed, hlead]
  | some p =>
    have hlower := feed_lower none (by simp) hopen
    simp only [feed, if_neg (show ¬ (p.lower ≤ x.toNat ∧ x.toNat ≤ p.upper) by omega), hlead]

lemma decodeFrom_append_ascii (hlast : ∀ x ∈ a.getLast?, x.toNat < 0x80) :
    decodeFrom none (a ++ b) = decodeFrom none a ++ decodeFrom none b := by
  have hclosed : (feed none a).2 = none := by
    cases h : a.getLast? with
    | none => rw [List.getLast?_eq_none_iff.mp h]; rfl
    | some x => exact feed_ascii h (hlast x h)
  rw [decodeFrom_eq, feed_append, hclosed, decodeFrom_eq none a, decodeFrom_eq none b, hclosed]
  simp only [flush, List.append_nil, List.append_assoc]

/-- A text can be cut off behind any character of ASCII, wherever the chunks end. -/
lemma decodeChunks_within {n : ℕ} (hlast : ∀ x ∈ (chunks.flatten.take n).getLast?, x.toNat < 0x80) :
    decodeChunks chunks = decodeChunks (within n chunks) ++ decodeChunks (beyond n chunks) := by
  induction chunks generalizing n with
  | nil => rfl
  | cons chunk rest ih =>
    have hcons : ∀ chunk rest, decodeChunks (chunk :: rest) = decodeFrom none chunk ++ decodeChunks rest :=
      fun chunk rest => List.flatMap_cons
    rw [List.flatten_cons, List.take_append] at hlast
    rw [within, beyond, hcons, hcons, hcons]
    by_cases hn : chunk.length ≤ n
    · have hall := ih (n := n - chunk.length) (by
        intro x hx
        apply hlast x
        rw [List.getLast?_append, hx]
        rfl)
      rw [List.take_of_length_le hn, List.drop_of_length_le hn, hall, List.append_assoc]
      rfl
    · have hzero : n - chunk.length = 0 := by omega
      have hnone := flatten_within 0 rest
      rw [hzero, List.take_zero, List.append_nil] at hlast
      have hsplit := decodeFrom_append_ascii (b := chunk.drop n) hlast
      rw [List.take_append_drop] at hsplit
      have hrest := ih (n := 0) (by simp)
      have hempty : decodeChunks (within 0 rest) = [] := by
        have hlength := decodeChunks_nil (hnone.trans (List.take_zero ..))
        exact hlength
      rw [hempty] at hrest
      rw [hsplit, hzero, hempty, hrest, List.append_nil, List.nil_append, List.append_assoc]

end Chunks

end VivimOmega.Library.Utf8
