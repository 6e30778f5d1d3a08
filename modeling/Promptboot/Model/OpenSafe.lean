import Promptboot.Model.OpenTokens

/-!
# An opened container is safe to read

Opening never panics, and on a view that it returns no accessor does. The payloads and the texts
that the accessors return fill their sections, and every merge puts two texts together.

`tensor_ok`, `tokenBytes_ok` and `merge_ok` are the accessors, each from the facts of the
validation. `payloads_tiled` and `texts_tiled` are the two tilings. The headline
`openAuthenticated_safe` has no hypothesis: it is about every address and every buffer.
-/

namespace Promptboot.Opening
open Buffer

section Safe

/-- What an opened view promises to those who read it. -/
structure OpenedView.Safe (view : OpenedView) : Prop where
  /-- Every section is there. -/
  sections : ∀ k : Fin 7,
    view.sectionAt (k + 1) = .ok (view.bytes.slice (view.extent k).1 (view.extent k).2)
  /-- Every tensor is there, where its entry says. -/
  tensor : ∀ id < tensorCount, ∃ t, view.tensor id = .ok t ∧
    (t.info.dataOffset, t.info.dataLength) = tensorExtent view.bytes id ∧
    t.data = view.bytes.slice t.info.dataOffset t.info.dataLength
  /-- The accessor of the engine, which checks nothing, reads the same tensor. -/
  engine : ∀ id < tensorCount, ∃ t, view.tensor id = .ok t ∧
    ModelView.tensor ⟨view.bytes.byte, view.sections, view.config⟩ id = .ok t
  /-- The tensors' payloads, in the order of their ids, are the tensor data. -/
  payloads : Tiled (view.extent 6).1 ((List.range tensorCount).map (tensorExtent view.bytes))
    ((view.extent 6).1 + (view.extent 6).2)
  tensorFor : ∀ layer role, NoPanic (view.tensorFor layer role)
  layers : ∀ layer < 24, ∀ role, 10 ≤ role → role ≤ 21 → ∃ t, view.tensorFor layer role = .ok t
  /-- Every token has a text, which is where the table of offsets says. -/
  tokenBytes : ∀ id < vocabCount, view.tokenBytes id = .ok (tokenText view.bytes id)
  /-- The texts, in the order of the ids, are the section of the texts. -/
  texts : Tiled (view.extent 1).1 ((List.range vocabCount).map (tokenExtent view.bytes))
    ((view.extent 1).1 + (view.extent 1).2)
  tokenType : ∀ id < vocabCount, ∃ t, view.tokenType id = .ok t
  /-- Every merge is there, and the text of its result is the texts of its halves. -/
  merge : ∀ rank < mergeCount, ∃ m left right, view.merge rank = .ok m ∧
    view.tokenBytes m.left.toNat = .ok left ∧ view.tokenBytes m.right.toNat = .ok right ∧
    view.tokenBytes m.result.toNat = .ok (left ++ right)

/-- Opening ends with an error or with a safe view, and not with a panic. -/
def SafelyOpened : Opening OpenedView → Prop
  | .ok view => view.Safe
  | .error (.error _) => True
  | .error .fault => False

end Safe

section Accessors
variable {bytes : Buffer}

/-- The view of a container whose sections are the frozen ones. -/
abbrev frozenView (bytes : Buffer) : OpenedView := ⟨bytes, frozenSections, .frozen⟩

/-- Every section is cut out of the container. -/
lemma sectionAt_ok (length : bytes.length = modelBytes) (k : Fin 7) :
    (frozenView bytes).sectionAt (k + 1) =
      .ok (bytes.slice ((frozenView bytes).extent k).1 ((frozenView bytes).extent k).2) := by
  have stop := section_stop k
  have fits : frozenSections[k].offset + frozenSections[k].length < 2 ^ 64 :=
    Nat.lt_of_le_of_lt stop (by decide)
  have inside : frozenSections[k].offset + frozenSections[k].length ≤ bytes.length := by
    rw [length]
    exact stop
  have bounds : 1 ≤ (k : Nat) + 1 ∧ (k : Nat) + 1 ≤ 7 := ⟨by omega, by omega⟩
  have cut := sliceIn_ok (Nat.le_add_right _ _) inside
  rw [Nat.add_sub_cancel_left] at cut
  rw [OpenedView.sectionAt, dif_pos bounds]
  simp only [Nat.add_sub_cancel]
  exact (bind_ok (plus_ok fits)).trans cut

/-- The place of a tensor is within the container. -/
lemma Directories.tensor_stop (h : Directories bytes) {id : Nat} (small : id < tensorCount) :
    (tensorExtent bytes id).1 + (tensorExtent bytes id).2 ≤ modelBytes :=
  (h.tensors.laid.bounds _ (List.mem_map_of_mem (List.mem_range.2 small))).2

/-- Every tensor is cut out of the container, where its entry says. -/
lemma tensor_ok (h : Directories bytes) {id : Nat} (small : id < tensorCount) :
    (frozenView bytes).tensor id = .ok ⟨ModelView.tensorMetaAt bytes.byte id,
      bytes.slice (tensorExtent bytes id).1 (tensorExtent bytes id).2⟩ := by
  obtain ⟨n, read⟩ := tensorMetaIn_ok h.length small
  have stop := h.tensor_stop small
  have fits : (tensorExtent bytes id).1 + (tensorExtent bytes id).2 < 2 ^ 64 :=
    Nat.lt_of_le_of_lt stop (by decide)
  have cut := sliceIn_ok (Nat.le_add_right _ _) (h.length ▸ stop)
  rw [Nat.add_sub_cancel_left] at cut
  rw [OpenedView.tensor, if_neg (Nat.not_le.2 small), bind_ok read]
  exact (bind_ok (plus_ok fits)).trans (bind_ok cut)

/-- Every layer has every role of a layer. -/
lemma tensorFor_ok (h : Directories bytes) {layer role : Nat} (layer_small : layer < 24)
    (low : 10 ≤ role) (high : role ≤ 21) :
    ∃ t, (frozenView bytes).tensorFor layer role = .ok t := by
  have small : 1 + layer * 12 + (role - 10) < tensorCount := by
    unfold tensorCount
    omega
  unfold OpenedView.tensorFor
  rw [if_neg (by omega), if_pos layer_small, if_pos ⟨low, high⟩]
  exact ⟨_, tensor_ok h small⟩

/-- The lookup by layer and role does not panic. -/
lemma noPanic_tensorFor (h : Directories bytes) (layer role : Nat) :
    NoPanic ((frozenView bytes).tensorFor layer role) := by
  unfold OpenedView.tensorFor
  by_cases global : layer = 0xffff
  · rw [if_pos global]
    split
    · exact .of_ok (tensor_ok h (by decide))
    · exact .of_ok (tensor_ok h (by decide))
    · exact .of_ok (tensor_ok h (by decide))
    · exact NoPanic.reject
  by_cases small : layer < 24
  · by_cases known : 10 ≤ role ∧ role ≤ 21
    · have id_small : 1 + layer * 12 + (role - 10) < tensorCount := by
        unfold tensorCount
        omega
      rw [if_neg global, if_pos small, if_pos known]
      exact .of_ok (tensor_ok h id_small)
    · rw [if_neg global, if_pos small, if_neg known]
      exact NoPanic.reject
  · rw [if_neg global, if_neg small]
    exact NoPanic.reject

/-- Every token's text is cut out of the container. -/
lemma tokenBytes_ok (h : Tokens bytes) (length : bytes.length = modelBytes) {id : Nat}
    (small : id < vocabCount) :
    (frozenView bytes).tokenBytes id = .ok (tokenText bytes id) := by
  have range : tokenRange bytes frozenSections[0].offset id = _ := tokenRange_ok length small
  rw [OpenedView.tokenBytes, if_neg (Nat.not_le.2 small), bind_ok range]
  exact h.text_ok length small

/-- Every token has a type. -/
lemma tokenType_ok (length : bytes.length = modelBytes) {id : Nat} (small : id < vocabCount) :
    ∃ t, (frozenView bytes).tokenType id = .ok t := by
  rw [OpenedView.tokenType, if_neg (Nat.not_le.2 small)]
  exact ⟨_, byteIn_ok (checkToken_reads length small).2⟩

/-- Every merge is read. -/
lemma merge_ok (length : bytes.length = modelBytes) {rank : Nat} (small : rank < mergeCount) :
    (frozenView bytes).merge rank = .ok (mergeAt bytes rank) := by
  have inside := merge_reads length small
  have read_left : u32In bytes (2133248 + rank * 12) = _ := u32In_ok (by omega)
  have read_right : u32In bytes (2133248 + rank * 12 + 4) = _ := u32In_ok (by omega)
  have read_result : u32In bytes (2133248 + rank * 12 + 8) = _ := u32In_ok (by omega)
  rw [OpenedView.merge, if_neg (Nat.not_le.2 small)]
  exact (bind_ok read_left).trans ((bind_ok read_right).trans (bind_ok read_result))

/-- On the bytes that passed, the engine's accessor reads what the checked one reads. -/
lemma tensor_eq_view (h : Directories bytes) {id : Nat} (small : id < tensorCount) :
    ∃ t, (frozenView bytes).tensor id = .ok t ∧
      ModelView.tensor ⟨bytes.byte, frozenSections, .frozen⟩ id = .ok t := by
  refine ⟨_, tensor_ok h small, ?_⟩
  have size : (tensorExtent bytes id).1 + (tensorExtent bytes id).2 - (tensorExtent bytes id).1 =
      (tensorExtent bytes id).2 := Nat.add_sub_cancel_left ..
  rw [ModelView.tensor, if_neg (Nat.not_le.2 small)]
  simp only [Promptboot.slice, Buffer.slice]
  rw [← size]
  rfl

/-- The payloads tile the section of the tensor data. -/
lemma payloads_tiled (h : Directories bytes) :
    Tiled ((frozenView bytes).extent 6).1 ((List.range tensorCount).map (tensorExtent bytes))
      (((frozenView bytes).extent 6).1 + ((frozenView bytes).extent 6).2) := by
  have start : ((frozenView bytes).extent 6).1 = 3980480 := rfl
  have size : ((frozenView bytes).extent 6).2 = 422782464 := rfl
  have stop : 3980480 + 422782464 = modelBytes := by decide
  rw [start, size, stop]
  exact h.tensors

/-- The texts tile the section of the texts. -/
lemma texts_tiled (h : Tokens bytes) :
    Tiled ((frozenView bytes).extent 1).1 ((List.range vocabCount).map (tokenExtent bytes))
      (((frozenView bytes).extent 1).1 + ((frozenView bytes).extent 1).2) := by
  have start : ((frozenView bytes).extent 1).1 = 608512 := rfl
  have size : ((frozenView bytes).extent 1).2 = 1372758 := rfl
  have stop : 608512 + 1372758 = 1981270 := by decide
  rw [start, size, stop]
  exact h.tiled

/-- What passed the checks is safe to read. -/
lemma safe_of_facts (h : Directories bytes) (tokens : Tokens bytes)
    (merges : ∀ rank < mergeCount, MergeFits bytes (mergeAt bytes rank)) :
    (frozenView bytes).Safe := by
  constructor
  case sections => exact sectionAt_ok h.length
  case tensor => exact fun id small => ⟨_, tensor_ok h small, rfl, rfl⟩
  case engine => exact fun id small => tensor_eq_view h small
  case payloads => exact payloads_tiled h
  case tensorFor => exact noPanic_tensorFor h
  case layers =>
    exact fun layer layer_small role low high => tensorFor_ok h layer_small low high
  case tokenBytes => exact fun id small => tokenBytes_ok tokens h.length small
  case texts => exact texts_tiled tokens
  case tokenType => exact fun id small => tokenType_ok h.length small
  case merge =>
    intro rank small
    obtain ⟨left_small, right_small, result_small, joined⟩ := merges rank small
    refine ⟨mergeAt bytes rank, _, _, merge_ok h.length small,
      tokenBytes_ok tokens h.length left_small, tokenBytes_ok tokens h.length right_small, ?_⟩
    rw [← joined]
    exact tokenBytes_ok tokens h.length result_small

end Accessors

/-- For every byte string at every address, opening ends with an error or with a view that is safe
to read. -/
theorem openAuthenticated_safe (sha : List UInt8 → Vector UInt8 32) (address : Nat)
    (bytes : Buffer) : SafelyOpened (openAuthenticated sha address bytes) := by
  have quiet : NoPanic (openAuthenticated sha address bytes) := by
    refine NoPanic.bind noPanic_openDirectories fun sections opened => ?_
    obtain ⟨rfl, facts⟩ := openDirectories_facts opened
    exact NoPanic.bind (noPanic_validateTokenizer facts.length) fun _ _ => NoPanic.pure
  cases run : openAuthenticated sha address bytes with
  | error stop =>
    cases stop with
    | error _ => trivial
    | fault => exact quiet run
  | ok view =>
    obtain ⟨sections, opened, run⟩ := bind_eq_ok run
    obtain ⟨rfl, facts⟩ := openDirectories_facts opened
    obtain ⟨_, valid, run⟩ := bind_eq_ok run
    cases run
    obtain ⟨tokens, merges⟩ := validateTokenizer_facts facts.length valid
    exact safe_of_facts facts tokens merges

end Promptboot.Opening
