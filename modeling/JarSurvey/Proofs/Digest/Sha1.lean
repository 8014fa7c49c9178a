import JarSurvey.Digest.Sha1
import Mathlib.Tactic

/-!
# Computing digests inside of proofs

A digest is a definite text, but a proof that needs to know it has to compute it, and the definition is
written for speed of another kind: arrays, machine words, and nothing that says when a value is computed.
`Numbers.digest` computes the same five words

* on natural numbers below `2 ^ 32` instead of machine words (`State.toNumbers`),
* on lists that are taken apart from the front instead of arrays (`takeWords_eq`, `newestFirst_expand`),
* and with every intermediate number computed before it is passed on (`forced`).

**`ofBytes_eq`**: the digest of some bytes is the text of the five numbers.  The kernel computes those of a
kilobyte in about two seconds.
-/

namespace JarSurvey.Digest.Sha1

/-! ## Numbers in the place of words -/

/-- Five words as numbers. -/
structure Numbers where
  a : Nat
  b : Nat
  c : Nat
  d : Nat
  e : Nat
  deriving DecidableEq

/-- The numbers of a state. -/
def State.toNumbers (s : State) : Numbers :=
  ⟨s.a.toNat, s.b.toNat, s.c.toNat, s.d.toNat, s.e.toNat⟩

namespace Numbers

/-- Passes on a number that has been computed. -/
def forced {α : Type} (n : Nat) (next : Nat → α) : α :=
  match n with
  | 0 => next 0
  | m + 1 => next (m + 1)

@[simp] lemma forced_eq {α : Type} (n : Nat) (next : Nat → α) : forced n next = next n := by
  cases n <;> rfl

/-- Rotates a word to the left. -/
def rotate (word count : Nat) : Nat :=
  (word <<< count % 0x100000000) ||| (word >>> (32 - count))

lemma toNat_rotate (word count : UInt32) (hpos : 0 < count.toNat) (hcount : count.toNat < 32) :
    (Sha1.rotate word count).toNat = rotate word.toNat count.toNat := by
  have hright : (32 - count).toNat % 32 = 32 - count.toNat := by
    rw [UInt32.toNat_sub]
    show (0x100000000 - count.toNat + 32) % 0x100000000 % 32 = 32 - count.toNat
    omega
  rw [Sha1.rotate, UInt32.toNat_or, UInt32.toNat_shiftLeft, UInt32.toNat_shiftRight, hright,
    Nat.mod_eq_of_lt hcount, rotate]

/-- The mixing function and the constant of a round. -/
def mix (round b c d : Nat) : Nat × Nat :=
  if round < 20 then ((b &&& c) ||| ((0x100000000 - 1 - b) &&& d), 0x5A827999)
  else if round < 40 then (b ^^^ c ^^^ d, 0x6ED9EBA1)
  else if round < 60 then ((b &&& c) ||| (b &&& d) ||| (c &&& d), 0x8F1BBCDC)
  else (b ^^^ c ^^^ d, 0xCA62C1D6)

lemma toNat_mix (round : Nat) (b c d : UInt32) :
    ((Sha1.mix round b c d).1.toNat, (Sha1.mix round b c d).2.toNat) =
      mix round b.toNat c.toNat d.toNat := by
  rw [Sha1.mix, mix]
  split_ifs <;> simp [UInt32.toNat_not, UInt32.size]

/-- Mixes in one word. -/
def round (s : Numbers) (number word : Nat) : Numbers :=
  let (f, k) := mix number s.b s.c s.d
  ⟨(rotate s.a 5 + f + s.e + k + word) % 0x100000000, s.a, rotate s.b 30, s.c, s.d⟩

lemma toNumbers_round (s : State) (number : Nat) (word : UInt32) :
    (Sha1.round s number word).toNumbers = round s.toNumbers number word.toNat := by
  obtain ⟨hf, hk⟩ := Prod.ext_iff.mp (toNat_mix number s.b s.c s.d)
  have h5 : (Sha1.rotate s.a 5).toNat = rotate s.a.toNat 5 := toNat_rotate _ _ (by decide) (by decide)
  have h30 : (Sha1.rotate s.b 30).toNat = rotate s.b.toNat 30 :=
    toNat_rotate _ _ (by decide) (by decide)
  simp only [round, State.toNumbers, Sha1.round, UInt32.toNat_add, h5, h30, ← hf, ← hk, Nat.mod_add_mod]

/-! ## The schedule of words

The newest word stands first, so that a word joins a list at its front.
-/

/-- The word that follows the words of a list, of which the newest stands first. -/
def nextWord (words : List Nat) : Nat :=
  rotate (words.getD 2 0 ^^^ words.getD 7 0 ^^^ words.getD 13 0 ^^^ words.getD 15 0) 1

/-- The words of a list and `count` more that follow them. -/
def schedule : Nat → List Nat → List Nat
  | 0, words => words
  | count + 1, words => forced (nextWord words) fun word => schedule count (word :: words)

/-- The words of an array as numbers, the newest first. -/
def newestFirst (words : Array UInt32) : List Nat :=
  (words.toList.map UInt32.toNat).reverse

lemma getD_newestFirst (words : Array UInt32) {j k : Nat} (h : j + k + 1 = words.size) :
    (newestFirst words).getD k 0 = (words.getD j 0).toNat := by
  have hj : j < words.size := by omega
  have hk : k < (words.toList.map UInt32.toNat).length := by
    rw [List.length_map, Array.length_toList]
    omega
  have hindex : (words.toList.map UInt32.toNat).length - 1 - k = j := by
    rw [List.length_map, Array.length_toList]
    omega
  rw [newestFirst, List.getD_eq_getElem?_getD, List.getElem?_reverse hk, hindex]
  simp [Array.getD, hj]

/-- One step of the expansion puts the next word in front. -/
lemma newestFirst_push (words : Array UInt32) {i : Nat} (hsize : words.size = i + 16) :
    newestFirst (words.push (Sha1.rotate (words.getD (i + 13) 0 ^^^ words.getD (i + 8) 0 ^^^
      words.getD (i + 2) 0 ^^^ words.getD i 0) 1)) =
        nextWord (newestFirst words) :: newestFirst words := by
  have hrotate := toNat_rotate (words.getD (i + 13) 0 ^^^ words.getD (i + 8) 0 ^^^
    words.getD (i + 2) 0 ^^^ words.getD i 0) 1 (by decide) (by decide)
  simp only [UInt32.toNat_xor] at hrotate
  rw [nextWord, getD_newestFirst words (j := i + 13) (by omega),
    getD_newestFirst words (j := i + 8) (by omega), getD_newestFirst words (j := i + 2) (by omega),
    getD_newestFirst words (j := i) (by omega)]
  simp only [newestFirst, Array.toList_push, List.map_append, List.map_cons, List.map_nil,
    List.reverse_append, List.reverse_cons, List.reverse_nil, List.nil_append, List.singleton_append]
  exact congrArg (· :: _) hrotate

/-- After `n` steps of the expansion, what is left of the schedule is shorter by `n`. -/
lemma expand_steps (words : Array UInt32) (hsize : words.size = 16) (n : Nat) :
    ∃ grown : Array UInt32,
      (List.range n).foldl (fun w i => w.push (Sha1.rotate (w.getD (i + 13) 0 ^^^ w.getD (i + 8) 0 ^^^
        w.getD (i + 2) 0 ^^^ w.getD i 0) 1)) words = grown ∧ grown.size = n + 16 ∧
      ∀ count, schedule count (newestFirst grown) = schedule (n + count) (newestFirst words) := by
  induction n with
  | zero => exact ⟨words, rfl, by omega, fun count => by rw [Nat.zero_add]⟩
  | succ n ih =>
      obtain ⟨grown, heq, hgrown, hschedule⟩ := ih
      rw [List.range_succ, List.foldl_append, heq]
      refine ⟨_, rfl, by simp [hgrown], fun count => ?_⟩
      have hnext := hschedule (count + 1)
      rw [schedule, forced_eq, ← newestFirst_push grown hgrown] at hnext
      rw [show n + 1 + count = n + (count + 1) by omega]
      exact hnext

/-- **The expansion of a block is its schedule.** -/
lemma newestFirst_expand (words : Array UInt32) (hsize : words.size = 16) :
    newestFirst (expand words) = schedule 64 (newestFirst words) := by
  obtain ⟨grown, heq, _, hschedule⟩ := expand_steps words hsize 64
  rw [expand, heq]
  exact hschedule 0

lemma size_expand (words : Array UInt32) (hsize : words.size = 16) : (expand words).size = 80 := by
  obtain ⟨grown, heq, hgrown, _⟩ := expand_steps words hsize 64
  rw [expand, heq, hgrown]

/-! ## The rounds -/

/-- The rounds from number `number` on, one for each word. -/
def rounds (s : Numbers) (number : Nat) : List Nat → Numbers
  | [] => s
  | word :: words =>
    match round s number word with
    | ⟨a, b, c, d, e⟩ =>
      forced a fun a => forced c fun c => forced (number + 1) fun number =>
        rounds ⟨a, b, c, d, e⟩ number words

lemma rounds_cons (s : Numbers) (number word : Nat) (words : List Nat) :
    rounds s number (word :: words) = rounds (round s number word) (number + 1) words := by
  rw [rounds]
  simp only [forced_eq]

lemma rounds_append (s : Numbers) (number : Nat) (words : List Nat) (last : Nat) :
    rounds s number (words ++ [last]) =
      round (rounds s number words) (number + words.length) last := by
  induction words generalizing s number with
  | nil => rw [List.nil_append, rounds_cons]; rfl
  | cons word words ih =>
      rw [List.cons_append, rounds_cons, ih, rounds_cons, List.length_cons]
      congr 1
      omega

/-- **Mixing in the words of an array, one after the other, makes the rounds.** -/
lemma toNumbers_foldl_round (words : Array UInt32) (s : State) (n : Nat) (hn : n ≤ words.size) :
    ((List.range n).foldl (fun s i => Sha1.round s i (words.getD i 0)) s).toNumbers =
      rounds s.toNumbers 0 ((words.toList.map UInt32.toNat).take n) := by
  induction n with
  | zero => rfl
  | succ n ih =>
      have hlt : n < (words.toList.map UInt32.toNat).length := by
        rw [List.length_map, Array.length_toList]
        omega
      have hlast : (words.toList.map UInt32.toNat)[n] = (words.getD n 0).toNat := by
        simp [Array.getD, show n < words.size by omega]
      rw [List.range_succ, List.foldl_append, List.foldl_cons, List.foldl_nil, toNumbers_round,
        ih (by omega), List.take_add_one, List.getElem?_eq_getElem hlt, hlast, Option.toList_some,
        rounds_append, List.length_take, Nat.zero_add, Nat.min_eq_left (by omega)]

/-! ## Blocks -/

/-- The word of four bytes. -/
def word (x y z t : UInt8) : Nat :=
  (x.toNat <<< 24 % 0x100000000) ||| (y.toNat <<< 16 % 0x100000000) ||| (z.toNat <<< 8 % 0x100000000) ||| t.toNat

/-- Takes `count` words from the front of some bytes and puts them in front of `words`. -/
def takeWords {α : Type} (next : List Nat → List UInt8 → α) : Nat → List Nat → List UInt8 → α
  | count + 1, words, x :: y :: z :: t :: rest =>
    forced (word x y z t) fun w => takeWords next count (w :: words) rest
  | _, words, bytes => next words bytes

/-- The word at place `i` of some bytes. -/
def wordAt (bytes : List UInt8) (i : Nat) : Nat :=
  word (bytes.getD (4 * i) 0) (bytes.getD (4 * i + 1) 0) (bytes.getD (4 * i + 2) 0)
    (bytes.getD (4 * i + 3) 0)

lemma takeWords_eq {α : Type} (next : List Nat → List UInt8 → α) {count : Nat} {words : List Nat}
    {bytes : List UInt8} (h : 4 * count ≤ bytes.length) :
    takeWords next count words bytes =
      next (((List.range count).map (wordAt bytes)).reverse ++ words) (bytes.drop (4 * count)) := by
  induction count generalizing words bytes with
  | zero => simp [takeWords]
  | succ count ih =>
      obtain ⟨x, y, z, t, rest, rfl⟩ : ∃ x y z t rest, bytes = x :: y :: z :: t :: rest := by
        match bytes, h with
        | x :: y :: z :: t :: rest, _ => exact ⟨x, y, z, t, rest, rfl⟩
      have hshift : ∀ i, wordAt (x :: y :: z :: t :: rest) (i + 1) = wordAt rest i := fun i => rfl
      rw [takeWords, forced_eq, ih (by simp only [List.length_cons] at h; omega), List.range_succ_eq_map,
        List.map_cons, List.map_map]
      simp only [Function.comp_def, Nat.succ_eq_add_one, hshift]
      rw [List.reverse_cons, List.append_assoc, Nat.mul_succ]
      rfl

/-- Takes in the words of a block. -/
def block (s : Numbers) (words : List Nat) : Numbers :=
  match s, rounds s 0 (schedule 64 words).reverse with
  | ⟨a, b, c, d, e⟩, ⟨a', b', c', d', e'⟩ =>
    forced ((a + a') % 0x100000000) fun a => forced ((b + b') % 0x100000000) fun b =>
      forced ((c + c') % 0x100000000) fun c => forced ((d + d') % 0x100000000) fun d =>
        forced ((e + e') % 0x100000000) fun e => ⟨a, b, c, d, e⟩

lemma block_eq (s : Numbers) (words : List Nat) :
    block s words =
      let mixed := rounds s 0 (schedule 64 words).reverse
      ⟨(s.a + mixed.a) % 0x100000000, (s.b + mixed.b) % 0x100000000, (s.c + mixed.c) % 0x100000000,
        (s.d + mixed.d) % 0x100000000, (s.e + mixed.e) % 0x100000000⟩ := by
  simp only [block, forced_eq]

/-- Takes in `count` blocks from the front of some bytes. -/
def blocks : Nat → Numbers → List UInt8 → Numbers
  | 0, s, _ => s
  | count + 1, s, bytes =>
    takeWords (fun words rest =>
      match block s words with
      | ⟨a, b, c, d, e⟩ => blocks count ⟨a, b, c, d, e⟩ rest) 16 [] bytes

lemma getD_toList (message : ByteArray) (i : Nat) :
    message.data.toList.getD i 0 = message[i]?.getD 0 := by
  rw [List.getD_eq_getElem?_getD]
  by_cases h : i < message.size
  · rw [getElem?_pos message i h, List.getElem?_eq_getElem (by simpa using h)]
    rfl
  · rw [getElem?_neg message i h, List.getElem?_eq_none (by simpa using h)]

/-- The sixteen words of the block that begins at byte `start`. -/
def blockWords (message : ByteArray) (start : Nat) : Array UInt32 :=
  let byte (i : Nat) : UInt32 := (message[start + i]?.getD 0).toUInt32
  (Array.range 16).map fun i =>
    (byte (4 * i) <<< 24) ||| (byte (4 * i + 1) <<< 16) ||| (byte (4 * i + 2) <<< 8) |||
      byte (4 * i + 3)

lemma newestFirst_blockWords (message : ByteArray) (start : Nat) :
    newestFirst (blockWords message start) =
      ((List.range 16).map (wordAt (message.data.toList.drop start))).reverse := by
  have hget : ∀ i, (message.data.toList.drop start).getD i 0 = message[start + i]?.getD 0 := by
    intro i
    rw [← getD_toList, List.getD_eq_getElem?_getD, List.getD_eq_getElem?_getD, List.getElem?_drop]
  rw [newestFirst, blockWords, Array.toList_map, Array.toList_range, List.map_map]
  refine congrArg List.reverse (List.map_congr_left fun i _ => ?_)
  simp only [Function.comp_apply, wordAt, word, hget, UInt32.toNat_or, UInt32.toNat_shiftLeft,
    UInt8.toNat_toUInt32, UInt32.reduceToNat, Nat.reduceMod]

/-- **Taking in a block of a message.** -/
lemma toNumbers_block (message : ByteArray) (s : State) (start : Nat) :
    (Sha1.block message s start).toNumbers =
      block s.toNumbers ((List.range 16).map (wordAt (message.data.toList.drop start))).reverse := by
  have hsize : (blockWords message start).size = 16 := by simp [blockWords]
  have hexpand := size_expand _ hsize
  have hmixed := toNumbers_foldl_round (expand (blockWords message start)) s 80 hexpand.ge
  rw [List.take_of_length_le (by simp [hexpand])] at hmixed
  rw [← newestFirst_blockWords, block_eq, ← newestFirst_expand _ hsize, newestFirst,
    List.reverse_reverse, ← hmixed]
  simp only [Sha1.block, State.toNumbers, UInt32.toNat_add]
  rfl

/-- **Taking in the blocks of a message from some place on.** -/
lemma toNumbers_blocks (message : ByteArray) (count start : Nat) (s : State)
    (h : 64 * (start + count) ≤ message.size) :
    ((List.range' start count).foldl (fun s i => Sha1.block message s (64 * i)) s).toNumbers =
      blocks count s.toNumbers (message.data.toList.drop (64 * start)) := by
  induction count generalizing start s with
  | zero => rfl
  | succ count ih =>
      have hlength : 4 * 16 ≤ (message.data.toList.drop (64 * start)).length := by
        rw [List.length_drop, Array.length_toList]
        show 64 ≤ message.size - 64 * start
        omega
      rw [List.range'_succ, List.foldl_cons, ih (start + 1) _ (by omega), toNumbers_block, blocks,
        takeWords_eq _ hlength, List.drop_drop, List.append_nil]
      rfl

/-! ## Whole messages -/

/-- The bytes with a one bit, zeros and their length in bits behind them. -/
def pad (bytes : List UInt8) : List UInt8 :=
  bytes ++ 0x80 :: (List.replicate ((119 - bytes.length % 64) % 64) 0 ++
    bytesOf 8 (bytes.length * 8))

lemma toList_foldl_push (bytes : List UInt8) (message : ByteArray) :
    (bytes.foldl ByteArray.push message).data.toList = message.data.toList ++ bytes := by
  induction bytes generalizing message with
  | nil => simp
  | cons byte bytes ih => simp [ih]

lemma toList_padded (message : ByteArray) : (padded message).data.toList = pad message.data.toList := by
  rw [padded, toList_foldl_push, pad]
  rfl

/-- The five numbers of a message. -/
def digest (bytes : List UInt8) : Numbers :=
  let data := pad bytes
  blocks (data.length / 64) initial.toNumbers data

end Numbers

/-- **The digest of some bytes is the text of their five numbers.** -/
lemma ofBytes_eq (message : ByteArray) :
    ofBytes message =
      let final := Numbers.digest message.data.toList
      Text.Hex.ofBytes ([final.a, final.b, final.c, final.d, final.e].flatMap (bytesOf 4)) := by
  have hsize : (padded message).size = (Numbers.pad message.data.toList).length := by
    rw [← Numbers.toList_padded, Array.length_toList]
    rfl
  have hfinal := Numbers.toNumbers_blocks (padded message) ((padded message).size / 64) 0 initial
    (by omega)
  rw [← List.range_eq_range', Nat.mul_zero, List.drop_zero, Numbers.toList_padded, hsize] at hfinal
  rw [Numbers.digest, ← hfinal, ofBytes, hsize]
  rfl

end JarSurvey.Digest.Sha1
