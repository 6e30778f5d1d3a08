import Promptboot.Primitive.Frame
import Promptboot.Primitive.Kernels

/-!
# What the kernels touch

The schema declares how many bytes a kernel may read and how many words it writes, and the kernel
indexes with formulas of its own. `inside` is the policy a schema stands for: no index overflows, no
read leaves what is declared, no word of the output is read before it is written. Every kernel obeys
it from an output nothing is written to, and leaves every word written.

`obeys_readInput`, `obeys_readOutput` and `obeys_writeBits` are the rules of one access,
`rowMajor_lt` the bound behind every index of two coordinates. Each kernel has a lemma under its own
name, and the inductions on its loops carry `Wrote`, the words of the output that are there already.
-/

namespace Promptboot.Primitive
open Memory Fallible

/-- The bytes that may be read behind a pointer; the output is read by words only. -/
def Schema.declaredBytes (s : Schema) : Pointer → Nat
  | .input => s.inputBytes
  | .aux => s.auxBytes
  | .table => 8388608
  | .output => 0

/-- What a schema allows when some words of the output are written. -/
def inside (s : Schema) : Policy Access (Set Nat) where
  initial := ∅
  allows
    | _, .index value => value < 2 ^ 64
    | written, .word .output word => word ∈ written
    | _, .word base word => word * 4 + 4 ≤ s.declaredBytes base
    | _, .bytes base byte count => byte + count ≤ s.declaredBytes base
    | _, .write word => word < s.outputWords
  after
    | written, .write word => insert word written
    | written, _ => written

/-- The words that are written are those of `P`. -/
def Wrote (P : Nat → Prop) (written : Set Nat) : Prop := ∀ word, word ∈ written ↔ P word

section Rules

variable {s : Schema} {ε : Type} {written : Set Nat} {stop : ε → Set Nat → Prop}

/-- One word more is written. -/
lemma Wrote.insert {P Q : Nat → Prop} {word : Nat} (wrote : Wrote P written)
    (grows : ∀ w, Q w ↔ w = word ∨ P w) : Wrote Q (insert word written) := by
  intro w
  rw [Set.mem_insert_iff, wrote, grows]

/-- The words written, said in another way. -/
lemma Wrote.congr {P Q : Nat → Prop} (wrote : Wrote P written) (same : ∀ w, Q w ↔ P w) :
    Wrote Q written := fun w => (wrote w).trans (same w).symm

/-- The accesses that led to a point wrote its words. -/
lemma permits_written {accesses : List Access} (h : (inside s).Permits accesses written) :
    Wrote (fun word => .write word ∈ accesses) written := by
  induction h with
  | nil => simp [Wrote, inside]
  | @snoc accesses written i _ _ ih =>
    cases i with
    | write word =>
      apply ih.insert
      intro w
      simp [or_comm]
    | _ =>
      apply ih.congr
      intro w
      simp

/-- A product that fits is no access. -/
lemma obeys_indexMul {left right : Nat} {post : Nat → Set Nat → Prop}
    (fits : left * right < 2 ^ 64) (h : post (left * right) written) :
    (inside s).Obeys written (indexMul left right) post stop :=
  .access fits fun _ => by rwa [Nat.mod_eq_of_lt fits]

/-- A sum that fits is no access. -/
lemma obeys_indexAdd {left right : Nat} {post : Nat → Set Nat → Prop}
    (fits : left + right < 2 ^ 64) (h : post (left + right) written) :
    (inside s).Obeys written (indexAdd left right) post stop :=
  .access fits fun _ => by rwa [Nat.mod_eq_of_lt fits]

/-- Reading a word that may be read. -/
lemma obeys_readBits {base : Pointer} {word : Nat} {post : Word → Set Nat → Prop}
    (fits : word * 4 < 2 ^ 64) (allowed : (inside s).allows written (.word base word))
    (h : ∀ bits, post bits written) :
    (inside s).Obeys written (readBits base word) post stop :=
  .bind (obeys_indexMul fits (.access allowed fun _ => h _))

/-- Reading a byte within the declared bytes. -/
lemma obeys_readByte {base : Pointer} {byte : Nat} {post : UInt8 → Set Nat → Prop}
    (allowed : byte + 1 ≤ s.declaredBytes base) (h : ∀ bits, post bits written) :
    (inside s).Obeys written (readByte base byte) post stop :=
  .access allowed fun _ => h _

/-- Reading a half word within the declared bytes. -/
lemma obeys_readHalf {base : Pointer} {byte : Nat} {post : UInt16 → Set Nat → Prop}
    (allowed : byte + 2 ≤ s.declaredBytes base) (h : ∀ bits, post bits written) :
    (inside s).Obeys written (readHalf base byte) post stop :=
  .access allowed fun _ => h _

/-- The check of finite words reads those words only. -/
lemma checkFinite_obeys {base : Pointer} {words : Nat} {stop : UInt32 → Set Nat → Prop}
    (fits : words * 4 < 2 ^ 64)
    (allowed : ∀ word < words, (inside s).allows written (.word base word))
    (stops : ∀ index, stop index written) :
    (inside s).Obeys written (checkFinite base words) (fun _ w => w = written) stop := by
  refine .loop (fun _ _ w => w = written) (Nat.zero_le words) rfl ?_ fun _ _ same => same
  rintro word _ w - below rfl
  refine .bind (obeys_readBits (by omega) (allowed word below) fun bits => ?_)
  split_ifs
  · exact .fail (stops _)
  · exact .pure rfl

end Rules

/-- The sizes of a schema whose output is counted by 32 bits. -/
structure Schema.Counted (s : Schema) : Prop where
  input : s.inputBytes < 2 ^ 64
  aux : s.auxBytes < 2 ^ 64
  output : s.outputWords < 2 ^ 32

section Words

variable {s : Schema} (counted : s.Counted) {ε : Type} {written : Set Nat}
  {stop : ε → Set Nat → Prop} {word : Nat}
include counted

/-- Reading a word of the input. -/
lemma obeys_readInput {post : Word → Set Nat → Prop} (allowed : word * 4 + 4 ≤ s.inputBytes)
    (h : ∀ bits, post bits written) :
    (inside s).Obeys written (readBits .input word) post stop := by
  have fits := counted.input
  exact obeys_readBits (by omega) allowed h

/-- Reading a word of the second input. -/
lemma obeys_readAux {post : Word → Set Nat → Prop} (allowed : word * 4 + 4 ≤ s.auxBytes)
    (h : ∀ bits, post bits written) :
    (inside s).Obeys written (readBits .aux word) post stop := by
  have fits := counted.aux
  exact obeys_readBits (by omega) allowed h

/-- Reading a word of the output that was written before. -/
lemma obeys_readOutput {post : Word → Set Nat → Prop} (below : word < s.outputWords)
    (before : word ∈ written) (h : ∀ bits, post bits written) :
    (inside s).Obeys written (readBits .output word) post stop := by
  have fits := counted.output
  exact obeys_readBits (by omega) before h

/-- Writing a word of the output. -/
lemma obeys_writeBits {bits : Word} {post : Unit → Set Nat → Prop} (below : word < s.outputWords)
    (h : post () (insert word written)) :
    (inside s).Obeys written (writeBits word bits) post stop := by
  have fits := counted.output
  exact .bind (obeys_indexMul (by omega) (.access below fun _ => h))

end Words

section Vectors

variable {s : Schema} (counted : s.Counted) (ops : Sse2Ops) {ε : Type} {count : Nat}
  {stop : ε → Set Nat → Prop} {written : Set Nat}
include counted

/-- The addition reads three vectors and writes one. -/
lemma biasResidual_obeys (input : count * 3 * 4 ≤ s.inputBytes) (output : count = s.outputWords) :
    (inside s).Obeys ∅ (biasResidual ops count) (fun _ => Wrote (· < count)) stop := by
  have small := counted.output
  refine .loop (fun index _ => Wrote (· < index)) (Nat.zero_le count) (by simp [Wrote]) ?_
    fun _ _ wrote => wrote
  rintro index - written - below wrote
  refine .bind (obeys_readInput counted (by omega) fun left => ?_)
  refine .bind (obeys_indexAdd (by omega) ?_)
  refine .bind (obeys_readInput counted (by omega) fun right => ?_)
  refine .bind (obeys_indexMul (by omega) ?_)
  refine .bind (obeys_indexAdd (by omega) ?_)
  refine .bind (obeys_readInput counted (by omega) fun rest => ?_)
  exact obeys_writeBits counted (by omega) (wrote.insert fun w => by omega)

/-- The normalisation reads two vectors and writes one. -/
lemma rmsnorm_obeys (input : count * 4 ≤ s.inputBytes) (aux : count * 4 ≤ s.auxBytes)
    (output : count = s.outputWords) :
    (inside s).Obeys ∅ (rmsnorm ops count) (fun _ => Wrote (· < count)) stop := by
  refine .bind (.loop (fun _ _ written => written = ∅) (Nat.zero_le count) rfl ?_ ?_)
  · rintro index _ _ - below rfl
    exact .bind (obeys_readInput counted (by omega) fun value => .pure rfl)
  rintro squares _ rfl
  refine .loop (fun index _ => Wrote (· < index)) (Nat.zero_le count) (by simp [Wrote]) ?_
    fun _ _ wrote => wrote
  rintro index - written - below wrote
  refine .bind (obeys_readInput counted (by omega) fun value => ?_)
  refine .bind (obeys_readAux counted (by omega) fun weight => ?_)
  exact obeys_writeBits counted (by omega) (wrote.insert fun w => by omega)

/-- The softmax reads a vector and writes one. -/
lemma softmax_obeys (positive : 0 < count) (input : count * 4 ≤ s.inputBytes)
    (output : count = s.outputWords) :
    (inside s).Obeys ∅ (softmax ops count) (fun _ => Wrote (· < count)) stop := by
  refine .bind (obeys_readInput counted (by omega) fun first => ?_)
  refine .bind (.loop (fun _ _ written => written = ∅) positive rfl ?_ ?_)
  · rintro index _ _ - below rfl
    exact .bind (obeys_readInput counted (by omega) fun value => .pure rfl)
  rintro maximum _ rfl
  refine .bind (.loop (fun index _ => Wrote (· < index)) (Nat.zero_le count) (by simp [Wrote])
    ?_ ?_)
  · rintro index total written - below wrote
    refine .bind (obeys_readInput counted (by omega) fun value => ?_)
    refine .bind (obeys_writeBits counted (by omega) (.pure ?_))
    exact wrote.insert fun w => by omega
  intro total written wrote
  refine .loop (fun _ _ => Wrote (· < count)) (Nat.zero_le count) wrote ?_ fun _ _ wrote => wrote
  rintro index - written - below wrote
  refine .bind (obeys_readOutput counted (by omega) ((wrote index).mpr below) fun value => ?_)
  exact obeys_writeBits counted (by omega) (wrote.insert fun w => by omega)

/-- The activation reads two vectors and writes two. -/
lemma siluSwiglu_obeys (input : count * 4 ≤ s.inputBytes) (aux : count * 4 ≤ s.auxBytes)
    (output : count * 2 = s.outputWords) :
    (inside s).Obeys ∅ (siluSwiglu ops count) (fun _ => Wrote (· < count * 2)) stop := by
  have small := counted.output
  refine .loop (fun index _ => Wrote fun w => w < index ∨ count ≤ w ∧ w < count + index)
    (Nat.zero_le count) (fun w => by simp) ?_ fun _ _ wrote => wrote.congr fun w => by omega
  rintro index - written - below wrote
  refine .bind (obeys_readInput counted (by omega) fun x => ?_)
  refine .bind (obeys_readAux counted (by omega) fun up => ?_)
  refine .bind (obeys_writeBits counted (by omega) ?_)
  refine .bind (obeys_indexAdd (by omega) ?_)
  have product : Wrote (fun w => w < index + 1 ∨ count ≤ w ∧ w < count + index)
      (insert index written) :=
    wrote.insert fun w => by omega
  exact obeys_writeBits counted (by omega) (product.insert fun w => by omega)

/-- The search for the maximum reads a vector and writes a word. -/
lemma argmax_obeys (positive : 0 < count) (input : count * 4 ≤ s.inputBytes)
    (output : s.outputWords = 1) :
    (inside s).Obeys ∅ (argmax ops count) (fun _ => Wrote (· < 1)) stop := by
  refine .bind (obeys_readInput counted (by omega) fun first => ?_)
  refine .bind (.loop (fun _ _ written => written = ∅) positive rfl ?_ ?_)
  · rintro index _ _ - below rfl
    exact .bind (obeys_readInput counted (by omega) fun value => .pure rfl)
  rintro ⟨selected, best⟩ _ rfl
  exact obeys_writeBits counted (by omega) fun w => by simp

end Vectors

/-- An element of a row of a matrix. -/
lemma rowMajor_lt {row rows column columns : Nat} (hr : row < rows) (hc : column < columns) :
    row * columns + column < rows * columns :=
  calc row * columns + column < row * columns + columns := Nat.add_lt_add_left hc _
    _ = (row + 1) * columns := (Nat.succ_mul row columns).symm
    _ ≤ rows * columns := Nat.mul_le_mul_right columns hr

section Rope

variable {s : Schema} (counted : s.Counted) (ops : Sse2Ops) {ε : Type} {headDim heads : Nat}
  {position : Nat} {stop : ε → Set Nat → Prop} {written : Set Nat}

/-- An entry of the table of a position in the context. -/
lemma ropeBits_obeys {pair component : Nat} {post : Word → Set Nat → Prop}
    (context : position < contextLimit) (pair_lt : pair < 32) (component_lt : component < 2)
    (h : ∀ bits, post bits written) :
    (inside s).Obeys written (ropeBits position pair component) post stop := by
  rw [contextLimit] at context
  refine .bind (obeys_indexMul (by omega) ?_)
  refine .bind (obeys_indexAdd (by omega) ?_)
  refine .bind (obeys_indexMul (by omega) ?_)
  refine .bind (obeys_indexAdd (by omega) ?_)
  refine .bind (obeys_indexMul (by omega) ?_)
  refine .access ?_ fun _ => h _
  show _ ≤ 8388608
  omega

include counted

/-- The rotation reads the heads and writes them. -/
lemma rope_obeys (dim : headDim = 4 ∨ headDim = 64) (context : position < contextLimit)
    (input : headDim * heads * 4 ≤ s.inputBytes) (output : headDim * heads = s.outputWords) :
    (inside s).Obeys ∅ (rope ops headDim heads position) (fun _ => Wrote (· < headDim * heads))
      stop := by
  have small := counted.output
  rw [Nat.mul_comm headDim heads] at input output ⊢
  refine .loop (fun head _ => Wrote (· < head * headDim)) (Nat.zero_le heads) (by simp [Wrote]) ?_
    fun _ _ wrote => wrote
  rintro head - written - head_lt wrote
  have head_end : head * headDim + headDim ≤ heads * headDim := by
    rw [← Nat.succ_mul]
    exact Nat.mul_le_mul_right headDim head_lt
  refine .bind (obeys_indexMul (by omega) ?_)
  -- the left halves of the pairs so far, and their right halves
  refine .loop (fun pair _ => Wrote fun w => w < head * headDim + pair ∨
      head * headDim + headDim / 2 ≤ w ∧ w < head * headDim + headDim / 2 + pair)
    (Nat.zero_le (headDim / 2)) (wrote.congr fun w => by omega) ?_
    fun _ _ wrote => wrote.congr fun w => by
      rw [Nat.succ_mul]
      omega
  rintro pair - written - pair_lt wrote
  have stride : pair * (if headDim = 4 then 16 else 1) < 32 := by
    split_ifs with four
    · omega
    · omega
  refine .bind (obeys_indexMul (by omega) ?_)
  refine .bind (ropeBits_obeys context stride (by decide) fun cosine => ?_)
  refine .bind (obeys_indexMul (by omega) ?_)
  refine .bind (ropeBits_obeys context stride (by decide) fun sine => ?_)
  refine .bind (obeys_indexAdd (by omega) ?_)
  refine .bind (obeys_readInput counted (by omega) fun left => ?_)
  refine .bind (obeys_indexAdd (by omega) ?_)
  refine .bind (obeys_indexAdd (by omega) ?_)
  refine .bind (obeys_readInput counted (by omega) fun right => ?_)
  refine .bind (obeys_indexAdd (by omega) ?_)
  refine .bind (obeys_writeBits counted (by omega) ?_)
  refine .bind (obeys_indexAdd (by omega) ?_)
  refine .bind (obeys_indexAdd (by omega) ?_)
  have rotated : Wrote (fun w => w < head * headDim + (pair + 1) ∨
      head * headDim + headDim / 2 ≤ w ∧ w < head * headDim + headDim / 2 + pair)
      (insert (head * headDim + pair) written) :=
    wrote.insert fun w => by omega
  exact obeys_writeBits counted (by omega) (rotated.insert fun w => by omega)

end Rope

section Quantized

variable {s : Schema} (counted : s.Counted) (ops : Sse2Ops) {rows columns : Nat} {q4 : Bool}
  {written : Set Nat}

include counted

/-- Reading a quantized number stays in its block. -/
lemma readQuant_obeys {ε : Type} {stop : ε → Set Nat → Prop} {block element : Nat}
    {post : Int32 → Set Nat → Prop} (element_lt : element < 32)
    (within : block + blockBytes q4 ≤ s.inputBytes) (h : ∀ quant, post quant written) :
    (inside s).Obeys written (readQuant q4 block element) post stop := by
  have fits := counted.input
  cases q4 with
  | true =>
    rw [show blockBytes true = 18 from rfl] at within
    refine .bind (obeys_indexAdd (by omega) (.bind (obeys_readByte ?_ fun packed => .pure (h _))))
    show _ ≤ s.inputBytes
    omega
  | false =>
    rw [show blockBytes false = 34 from rfl] at within
    refine .bind (obeys_indexAdd (by omega) (.bind (obeys_readByte ?_ fun quant => .pure (h _))))
    show _ ≤ s.inputBytes
    omega

/-- A block is written behind the blocks before it, or ends the loop where it begins. -/
lemma dequantize_obeys {row block : Nat} (whole : columns % 32 = 0)
    (input : rows * (columns / 32) * blockBytes q4 ≤ s.inputBytes)
    (output : rows * columns ≤ s.outputWords) (row_lt : row < rows)
    (block_lt : block < columns / 32)
    (wrote : Wrote (· < (row * (columns / 32) + block) * 32) written) :
    (inside s).Obeys written (dequantize ops columns q4 row block)
      (fun _ => Wrote (· < (row * (columns / 32) + (block + 1)) * 32))
      fun index => Wrote (· < index.toNat * 32) := by
  have fits := counted.input
  have small := counted.output
  have number_lt : row * (columns / 32) + block < rows * (columns / 32) :=
    rowMajor_lt row_lt block_lt
  have last : (row * (columns / 32) + block) * blockBytes q4 + blockBytes q4 ≤ s.inputBytes := by
    rw [← Nat.succ_mul]
    exact (Nat.mul_le_mul_right _ number_lt).trans input
  have width (count : Nat) : count * columns = count * (columns / 32) * 32 := by
    rw [Nat.mul_assoc, Nat.div_mul_cancel (Nat.dvd_of_mod_eq_zero whole)]
  have positive : 2 ≤ blockBytes q4 := by cases q4 <;> decide
  rw [width] at output
  refine .bind (obeys_indexMul (by omega) (.bind (obeys_indexAdd (by omega) ?_)))
  refine .bind (obeys_indexMul (by omega) (.bind (obeys_readHalf ?_ fun scale => ?_)))
  · show _ ≤ s.inputBytes
    omega
  dsimp only
  split_ifs with nonfinite
  · apply Policy.Obeys.fail
    rw [UInt32.toNat_ofNat', Nat.mod_eq_of_lt (by omega)]
    exact wrote
  refine .loop (fun element _ => Wrote (· < (row * (columns / 32) + block) * 32 + element))
    (Nat.zero_le 32) wrote ?_ fun _ _ wrote => wrote.congr fun w => by omega
  rintro element - written - element_lt wrote
  refine .bind (readQuant_obeys counted element_lt last fun quant => ?_)
  have start := width row
  refine .bind (obeys_indexMul (by omega) (.bind (obeys_indexMul (by omega) ?_)))
  refine .bind (obeys_indexAdd (by omega) (.bind (obeys_indexAdd (by omega) ?_)))
  exact obeys_writeBits counted (by omega) (wrote.insert fun w => by omega)

/-- A row's product reads what is declared and the words written before. -/
lemma rowDot_obeys {ε : Type} {stop : ε → Set Nat → Prop} {row : Nat}
    (aux : columns * 4 ≤ s.auxBytes) (output : rows * columns + 1 + rows = s.outputWords)
    (row_lt : row < rows)
    (wrote : Wrote (fun w => w < rows * columns ∨ 0 < row ∧ w < rows * columns + 1 + row) written) :
    (inside s).Obeys written (rowDot ops (rows * columns) columns row)
      (fun _ => Wrote fun w => w < rows * columns ∨
        0 < row + 1 ∧ w < rows * columns + 1 + (row + 1)) stop := by
  have small := counted.output
  refine .bind (.loop (fun _ _ w => written = w) (Nat.zero_le columns) rfl ?_ ?_)
  · rintro column _ _ - column_lt rfl
    have below : row * columns + column < rows * columns := rowMajor_lt row_lt column_lt
    refine .bind (obeys_indexMul (by omega) (.bind (obeys_indexAdd (by omega) ?_)))
    refine .bind (obeys_readOutput counted (by omega) ((wrote _).mpr (.inl below)) fun left => ?_)
    exact .bind (obeys_readAux counted (by omega) fun right => .pure rfl)
  rintro total _ rfl
  -- only the first row writes the word in front of the totals
  have first (then_ : Set Nat → Prop)
      (h : ∀ written, Wrote (fun w => w < rows * columns + 1 + row) written → then_ written) :
      (inside s).Obeys written (if row = 0 then writeBits (rows * columns) total else pure ())
        (fun _ => then_) stop := by
    split_ifs with zero
    · exact obeys_writeBits counted (by omega) (h _ (wrote.insert fun w => by omega))
    · exact .pure (h _ (wrote.congr fun w => by omega))
  refine .bind (first _ fun written wrote => ?_)
  refine .bind (obeys_indexAdd (by omega) (.bind (obeys_indexAdd (by omega) ?_)))
  exact obeys_writeBits counted (by omega) (wrote.insert fun w => by omega)

/-- The products read the blocks and write weights, sums and a count. -/
lemma quantized_obeys (whole : columns % 32 = 0)
    (input : rows * (columns / 32) * blockBytes q4 ≤ s.inputBytes) (aux : columns * 4 ≤ s.auxBytes)
    (positive : 0 < rows) (output : rows * columns + 1 + rows = s.outputWords) :
    (inside s).Obeys ∅ (quantized ops rows columns q4)
      (fun _ => Wrote (· < rows * columns + 1 + rows))
      fun index => Wrote (· < index.toNat * 32) := by
  have small := counted.output
  have width : rows * columns = rows * (columns / 32) * 32 := by
    rw [Nat.mul_assoc, Nat.div_mul_cancel (Nat.dvd_of_mod_eq_zero whole)]
  refine .bind (.loop (fun row _ => Wrote (· < row * (columns / 32) * 32)) (Nat.zero_le rows)
    (by simp [Wrote]) ?_ ?_)
  · rintro row - written - row_lt wrote
    refine .loop (fun block _ => Wrote (· < (row * (columns / 32) + block) * 32))
      (Nat.zero_le (columns / 32)) wrote ?_ fun _ _ wrote => wrote.congr fun w => by
        rw [Nat.succ_mul]
    rintro block - written - block_lt wrote
    exact dequantize_obeys counted ops whole input (by omega) row_lt block_lt wrote
  rintro - written wrote
  refine .bind (obeys_indexMul (by omega) ?_)
  refine .loop (fun row _ => Wrote fun w => w < rows * columns ∨ 0 < row ∧
    w < rows * columns + 1 + row) (Nat.zero_le rows) (wrote.congr fun w => by omega) ?_
    fun _ _ wrote => wrote.congr fun w => by omega
  rintro row - written - row_lt wrote
  exact rowDot_obeys counted ops aux output row_lt wrote

end Quantized

section Attention

/-- A query head belongs to one of the KV heads. -/
lemma kvHeadOf_lt {queryHeads kvHeads queryHead : Nat} (small : queryHeads < 2 ^ 32)
    (grouped : kvHeads ∣ queryHeads) (head_lt : queryHead < queryHeads) :
    kvHeadOf queryHeads kvHeads queryHead < kvHeads := by
  have some : 0 < queryHeads := Nat.zero_lt_of_lt head_lt
  have kv_le : kvHeads ≤ queryHeads := Nat.le_of_dvd some grouped
  have kv_pos : 0 < kvHeads := Nat.pos_of_dvd_of_pos grouped some
  have word {n : Nat} (h : n ≤ queryHeads) : (UInt64.ofNat n).toNat = n :=
    UInt64.toNat_ofNat_of_lt' (show n < 2 ^ 64 by omega)
  have group : (unsignedDivide (UInt64.ofNat queryHeads) (UInt64.ofNat kvHeads)).toNat =
      queryHeads / kvHeads := by
    rw [toNat_unsignedDivide, word (Nat.le_refl queryHeads), word kv_le]
    · rwa [word kv_le]
    · rw [word kv_le]
      omega
  have group_pos : 0 < queryHeads / kvHeads := Nat.div_pos kv_le kv_pos
  have group_le : queryHeads / kvHeads ≤ queryHeads := Nat.div_le_self _ _
  rw [kvHeadOf, toNat_unsignedDivide, group, word (Nat.le_of_lt head_lt)]
  · rwa [Nat.div_lt_iff_lt_mul group_pos, Nat.mul_div_cancel' grouped]
  · rwa [group]
  · rw [group]
    omega

variable {s : Schema} (counted : s.Counted) (ops : Sse2Ops) {ε : Type}
  {queryHeads kvHeads positions headDim base queryHead kvHead resultBase : Nat} {maximum : Word}
  {stop : ε → Set Nat → Prop} {written : Set Nat}

/-- An element of the keys or of the values, of which there is a matrix for each position. -/
lemma kvIndex_obeys {position element : Nat} {post : Nat → Set Nat → Prop}
    (fits : base + positions * kvHeads * headDim < 2 ^ 64) (position_lt : position < positions)
    (kv_lt : kvHead < kvHeads) (element_lt : element < headDim)
    (h : ∀ index, index < base + positions * kvHeads * headDim → post index written) :
    (inside s).Obeys written (kvIndex base kvHeads headDim kvHead position element) post stop := by
  have head_lt : position * kvHeads + kvHead < positions * kvHeads := rowMajor_lt position_lt kv_lt
  have index_lt : (position * kvHeads + kvHead) * headDim + element <
      positions * kvHeads * headDim := rowMajor_lt head_lt element_lt
  have dim_pos : 0 < headDim := Nat.zero_lt_of_lt element_lt
  have heads_le : positions * kvHeads ≤ positions * kvHeads * headDim :=
    Nat.le_mul_of_pos_right _ dim_pos
  refine .bind (obeys_indexMul (by omega) (.bind (obeys_indexAdd (by omega) ?_)))
  refine .bind (obeys_indexMul (by omega) (.bind (obeys_indexAdd (by omega) ?_)))
  exact obeys_indexAdd (by omega) (h _ (by omega))

include counted

/-- The scores of a head go behind its probabilities. -/
lemma gqaScores_obeys
    (keys : (base + positions * kvHeads * headDim) * 4 ≤ s.inputBytes)
    (queries : queryHeads * headDim ≤ base) (query_lt : queryHead < queryHeads)
    (kv_lt : kvHead < kvHeads) (output : resultBase + headDim + positions * 2 ≤ s.outputWords)
    (wrote : Wrote (· < resultBase) written) :
    (inside s).Obeys written (gqaScores ops base kvHeads positions headDim queryHead kvHead
        (resultBase + headDim + positions))
      (fun _ => Wrote fun w => w < resultBase ∨
        resultBase + headDim + positions ≤ w ∧ w < resultBase + headDim + positions * 2)
      stop := by
  have fits := counted.input
  have small := counted.output
  refine .loop (fun position _ => Wrote fun w => w < resultBase ∨
      resultBase + headDim + positions ≤ w ∧ w < resultBase + headDim + positions + position)
    (Nat.zero_le positions) (wrote.congr fun w => by omega) ?_
    fun _ _ wrote => wrote.congr fun w => by omega
  rintro position maximum written - position_lt wrote
  refine .bind (.loop (fun _ _ w => written = w) (Nat.zero_le headDim) rfl ?_ ?_)
  · rintro element dot _ - element_lt rfl
    have query : queryHead * headDim + element < queryHeads * headDim :=
      rowMajor_lt query_lt element_lt
    refine .bind (kvIndex_obeys (by omega) position_lt kv_lt element_lt fun key key_lt => ?_)
    refine .bind (obeys_indexMul (by omega) (.bind (obeys_indexAdd (by omega) ?_)))
    refine .bind (obeys_readInput counted (by omega) fun query => ?_)
    exact .bind (obeys_readInput counted (by omega) fun key => .pure rfl)
  rintro dot _ rfl
  refine .bind (obeys_indexAdd (by omega) ?_)
  refine .bind (obeys_writeBits counted (by omega) (.pure ?_))
  exact wrote.insert fun w => by omega

/-- The probabilities of a head read its scores. -/
lemma gqaProbabilities_obeys (output : resultBase + headDim + positions * 2 ≤ s.outputWords)
    (wrote : Wrote (fun w => w < resultBase ∨
      resultBase + headDim + positions ≤ w ∧ w < resultBase + headDim + positions * 2) written) :
    (inside s).Obeys written (gqaProbabilities ops positions (resultBase + headDim)
        (resultBase + headDim + positions) maximum)
      (fun _ => Wrote fun w => w < resultBase ∨
        resultBase + headDim ≤ w ∧ w < resultBase + headDim + positions * 2) stop := by
  have small := counted.output
  refine .bind (.loop (fun position _ => Wrote fun w => w < resultBase ∨
      resultBase + headDim ≤ w ∧ w < resultBase + headDim + position ∨
      resultBase + headDim + positions ≤ w ∧ w < resultBase + headDim + positions * 2)
    (Nat.zero_le positions) (wrote.congr fun w => by omega) ?_ ?_)
  · rintro position sum written - position_lt wrote
    refine .bind (obeys_indexAdd (by omega) ?_)
    refine .bind (obeys_readOutput counted (by omega) ((wrote _).mpr (by omega)) fun score => ?_)
    refine .bind (obeys_indexAdd (by omega) ?_)
    refine .bind (obeys_writeBits counted (by omega) (.pure ?_))
    exact wrote.insert fun w => by omega
  rintro sum written wrote
  -- the division writes over what it reads
  refine .loop (fun _ _ => Wrote fun w => w < resultBase ∨
      resultBase + headDim ≤ w ∧ w < resultBase + headDim + positions * 2)
    (Nat.zero_le positions) (wrote.congr fun w => by omega) ?_ fun _ _ wrote => wrote
  rintro position - written - position_lt wrote
  refine .bind (obeys_indexAdd (by omega) (.bind (obeys_indexAdd (by omega) ?_)))
  refine .bind (obeys_readOutput counted (by omega) ((wrote _).mpr (by omega)) fun value => ?_)
  exact obeys_writeBits counted (by omega) (wrote.insert fun w => by omega)

/-- The result of a head reads its probabilities. -/
lemma gqaResult_obeys
    (values : (base + positions * kvHeads * headDim) * 4 ≤ s.inputBytes)
    (kv_lt : kvHead < kvHeads) (output : resultBase + headDim + positions * 2 ≤ s.outputWords)
    (wrote : Wrote (fun w => w < resultBase ∨
      resultBase + headDim ≤ w ∧ w < resultBase + headDim + positions * 2) written) :
    (inside s).Obeys written (gqaResult ops base kvHeads positions headDim kvHead
        (resultBase + headDim) resultBase)
      (fun _ => Wrote (· < resultBase + headDim + positions * 2)) stop := by
  have fits := counted.input
  have small := counted.output
  refine .loop (fun element _ => Wrote fun w => w < resultBase + element ∨
      resultBase + headDim ≤ w ∧ w < resultBase + headDim + positions * 2)
    (Nat.zero_le headDim) wrote ?_ fun _ _ wrote => wrote.congr fun w => by omega
  rintro element - written - element_lt wrote
  refine .bind (.loop (fun _ _ w => written = w) (Nat.zero_le positions) rfl ?_ ?_)
  · rintro position total _ - position_lt rfl
    refine .bind (kvIndex_obeys (by omega) position_lt kv_lt element_lt fun value value_lt => ?_)
    refine .bind (obeys_indexAdd (by omega) ?_)
    refine .bind (obeys_readOutput counted (by omega) ((wrote _).mpr (by omega)) fun p => ?_)
    exact .bind (obeys_readInput counted (by omega) fun value => .pure rfl)
  rintro total _ rfl
  refine .bind (obeys_indexAdd (by omega) ?_)
  exact obeys_writeBits counted (by omega) (wrote.insert fun w => by omega)

/-- The attention writes result, probabilities and scores of every head. -/
lemma gqaAttention_obeys (small : queryHeads < 2 ^ 32) (grouped : kvHeads ∣ queryHeads)
    (input : (queryHeads * headDim + positions * kvHeads * headDim * 2) * 4 ≤ s.inputBytes)
    (output : queryHeads * (headDim + positions * 2) = s.outputWords) (some : 0 < queryHeads)
    (dim_pos : 0 < headDim) :
    (inside s).Obeys ∅ (gqaAttention ops queryHeads kvHeads positions headDim)
      (fun _ => Wrote (· < queryHeads * (headDim + positions * 2))) stop := by
  have fits := counted.input
  have words := counted.output
  have kv_le : positions * kvHeads ≤ positions * kvHeads * headDim :=
    Nat.le_mul_of_pos_right _ dim_pos
  have perHead_le : headDim + positions * 2 ≤ queryHeads * (headDim + positions * 2) :=
    Nat.le_mul_of_pos_left _ some
  refine .bind (obeys_indexMul (by omega) (.bind (obeys_indexMul (by omega) ?_)))
  refine .bind (obeys_indexMul (by omega) (.bind (obeys_indexAdd (by omega) ?_)))
  refine .bind (obeys_indexMul (by omega) (.bind (obeys_indexAdd (by omega) ?_)))
  refine .loop (fun head _ => Wrote (· < head * (headDim + positions * 2)))
    (Nat.zero_le queryHeads) (by simp [Wrote]) ?_ fun _ _ wrote => wrote
  rintro queryHead - written - query_lt wrote
  have kv_lt := kvHeadOf_lt small grouped query_lt
  have head_end : queryHead * (headDim + positions * 2) + headDim + positions * 2 ≤
      s.outputWords := by
    rw [← output, Nat.add_assoc, ← Nat.succ_mul]
    exact Nat.mul_le_mul_right _ query_lt
  refine .bind (obeys_indexMul (by omega) ?_)
  refine .bind (obeys_indexAdd (by omega) (.bind (obeys_indexAdd (by omega) ?_)))
  refine .seq (gqaScores_obeys counted ops (by omega) (Nat.le_refl _) query_lt kv_lt head_end
    wrote) ?_
  rintro maximum written wrote
  refine .seq (gqaProbabilities_obeys counted ops head_end wrote) ?_
  rintro - written wrote
  refine (gqaResult_obeys counted ops (by omega) kv_lt head_end wrote).mono ?_
    fun _ _ stops => stops
  exact fun _ _ wrote => wrote.congr fun w => by
    rw [Nat.succ_mul, Nat.add_assoc]

end Attention

end Promptboot.Primitive
