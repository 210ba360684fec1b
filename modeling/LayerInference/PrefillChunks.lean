import LayerInference.CommutingRuns
import LayerInference.WholeModel
import LayerInference.ZeroModel

/-!
# Feeding a prompt in pieces

A stage may run a sequence of rows through its layers at once, or piece by
piece with the position of each piece. The second way runs the first rows
through all layers before it looks at the next ones. As long as no layer is
listed twice, work on different layers is on different caches and can be
exchanged, so both ways give the same rows and leave the same executor.
-/

namespace LayerInference.PrefillChunks

open ByteStrings FallibleRuns CommutingRuns FlatVectors FloatArithmetic CpuExecutor WholeModel

variable {F D G : Type} [FloatArith F] [FloatArith D] [Numerics F D G]

/-- Feed the rows in pieces of the given sizes, each behind the rows before it. -/
def runPieces (context : ExecutorContext F) (layers : List ℤ) :
    List F → List ℕ → ℕ → ExecM context.hp (List F)
  | _, [], _ => pure []
  | hidden, rows :: sizes, kvSeqBefore => do
    let width := rows * context.hp.hiddenSize
    let out ← runLayers context layers (hidden.take width) rows kvSeqBefore
    let rest ← runPieces context layers (hidden.drop width) sizes (kvSeqBefore + rows)
    pure (out ++ rest)

section Exchange

variable {context : ExecutorContext F} {l l' : ℤ}

/-- The rotation does the same to its table whatever it rotates. -/
theorem commutes_applyRope (q k q' k' : List F) (position position' : ℕ) :
    Commutes (successes (applyRope q k position : ExecM context.hp (List F × List F)))
      (successes (applyRope q' k' position' : ExecM context.hp (List F × List F))) := by
  have hrun (q k : List F) (position : ℕ) :
      successes (applyRope q k position : ExecM context.hp (List F × List F)) = fun s =>
        some ((rotate context.hp.headDim (ropeInvFreqTable context.hp) position context.hp.nHead q,
          rotate context.hp.headDim (ropeInvFreqTable context.hp) position context.hp.nHeadKv k),
          { s with ropeInvFreq := s.ropeInvFreq.ensure }) := by
    funext s
    simp only [successes, applyRope, RopeTable.ensure_invFreq]
  unfold Commutes
  rw [hrun, hrun]
  rfl

/-- The rotation and the attention of a row touch different parts. -/
theorem commutes_rope_attention (q k q' k' v' : List F) (position position' : ℕ) :
    Commutes (successes (applyRope q k position : ExecM context.hp (List F × List F)))
      (successes (attention context l' q' k' v' position')) := by
  have hrope : (applyRope q k position : ExecM context.hp (List F × List F)) =
      onPart (fun s => s.ropeInvFreq) (fun s table => { s with ropeInvFreq := table })
        fun table => .ok (rotate context.hp.headDim table.ensure.invFreq position context.hp.nHead q,
          rotate context.hp.headDim table.ensure.invFreq position context.hp.nHeadKv k)
          table.ensure := rfl
  rw [hrope, attention]
  refine commutes_onPart ?_ ?_ ?_ _ _
  · exact fun _ _ => rfl
  · exact fun _ _ => rfl
  · exact fun _ _ _ => rfl

/-- The attention of two layers is on two caches. -/
theorem commutes_attention (hne : l ≠ l') (q k v q' k' v' : List F) (position position' : ℕ) :
    Commutes (successes (attention context l q k v position))
      (successes (attention context l' q' k' v' position')) := by
  refine commutes_onPart (fun s cache => ?_) (fun s cache => ?_) (fun s cache cache' => ?_) _ _
  · exact Function.update_of_ne hne _ _
  · exact Function.update_of_ne hne.symm _ _
  · simp only [LlamaCpuExecutor.setLayer, Function.update_comm hne.symm]

/-- A row commutes with what its rotation and its attention commute with. -/
theorem commutes_runRow {α : Type} {y : StateT (LlamaCpuExecutor context.hp) Option α}
    (position : ℕ)
    (hrope : ∀ q k, Commutes
      (successes (applyRope q k position : ExecM context.hp (List F × List F))) y)
    (hattention : ∀ q k v, Commutes (successes (attention context l q k v position)) y)
    (attnNorm ffnNorm x : List F) :
    Commutes (successes (runRow context l attnNorm ffnNorm x position)) y := by
  unfold runRow
  simp only [successes_bind]
  refine (commutes_stateless _ y).bind fun xn => (commutes_stateless _ y).bind fun q => ?_
  refine (commutes_stateless _ y).bind fun k => (commutes_stateless _ y).bind fun v => ?_
  refine (hrope q k).bind fun rotated => (hattention _ _ v).bind fun ctx => ?_
  refine (commutes_stateless _ y).bind fun attnOut => (commutes_stateless _ y).bind fun fn => ?_
  refine (commutes_stateless _ y).bind fun gate => (commutes_stateless _ y).bind fun up => ?_
  refine (commutes_stateless _ y).bind fun ffn => (commutes_stateless _ y).bind fun down => ?_
  exact commutes_pure _ y

/-- Rows of different layers may be run in either order. -/
theorem commutes_rows (hne : l ≠ l') (attnNorm ffnNorm x attnNorm' ffnNorm' x' : List F)
    (position position' : ℕ) :
    Commutes (successes (runRow context l attnNorm ffnNorm x position))
      (successes (runRow context l' attnNorm' ffnNorm' x' position')) := by
  refine commutes_runRow position (fun q k => ?_) (fun q k v => ?_) attnNorm ffnNorm x
  · refine (commutes_runRow position' (fun q' k' => ?_) (fun q' k' v' => ?_) _ _ _).symm
    · exact commutes_applyRope q' k' q k position' position
    · exact (commutes_rope_attention q k q' k' v' position position').symm
  · refine (commutes_runRow position' (fun q' k' => ?_) (fun q' k' v' => ?_) _ _ _).symm
    · exact commutes_rope_attention q' k' q k v position' position
    · exact (commutes_attention hne q k v q' k' v' position position').symm

/-- A layer commutes with what its rows commute with. -/
theorem commutes_runLayer {α : Type} {y : StateT (LlamaCpuExecutor context.hp) Option α}
    (hrow : ∀ attnNorm ffnNorm x position,
      Commutes (successes (runRow context l attnNorm ffnNorm x position)) y)
    (input : List F) (rows n : ℕ) : Commutes (successes (runLayer context l input rows n)) y := by
  unfold runLayer
  simp only [successes_bind, successes_foldlM]
  refine (commutes_stateless _ y).bind fun attnNorm => (commutes_stateless _ y).bind fun ffnNorm => ?_
  exact commutes_foldlM (fun output t _ => (hrow _ _ _ _).bind fun row => commutes_pure _ y) input

/-- A layer commutes with a pass over other layers. -/
theorem commutes_runLayers {layers : List ℤ} (hl : l ∉ layers) (input input' : List F)
    (rows n rows' n' : ℕ) :
    Commutes (successes (runLayer context l input rows n))
      (successes (runLayers context layers input' rows' n')) := by
  refine Commutes.symm ?_
  unfold runLayers
  rw [successes_foldlM]
  refine commutes_foldlM (fun hidden l' hl' => ?_) input'
  have hne : l' ≠ l := fun h => hl (h ▸ hl')
  refine commutes_runLayer (fun attnNorm ffnNorm x position => ?_) hidden rows' n'
  exact (commutes_runLayer (fun attnNorm' ffnNorm' x' position' =>
    commutes_rows hne.symm _ _ _ _ _ _ _ _) input rows n).symm

end Exchange

section Rows

variable {context : ExecutorContext F} {l : ℤ}

/-- The rows of one layer, with its norms at hand. -/
def runRows (context : ExecutorContext F) (l : ℤ) (attnNorm ffnNorm : List F) (n : ℕ)
    (ts : List ℕ) (input : List F) : ExecM context.hp (List F) :=
  ts.foldlM (fun output t => do
    let row ← runRow context l attnNorm ffnNorm
      (slice output (t * context.hp.hiddenSize) context.hp.hiddenSize) (n + t)
    pure (writeAt output (t * context.hp.hiddenSize) row)) input

theorem runRows_cons (attnNorm ffnNorm : List F) (n t : ℕ) (ts : List ℕ) (input : List F) :
    runRows context l attnNorm ffnNorm n (t :: ts) input =
      runRow context l attnNorm ffnNorm
          (slice input (t * context.hp.hiddenSize) context.hp.hiddenSize) (n + t) >>= fun row =>
        runRows context l attnNorm ffnNorm n ts
          (writeAt input (t * context.hp.hiddenSize) row) := by
  unfold runRows
  rw [List.foldlM_cons, bind_assoc]
  simp only [pure_bind]

/-- A row has the width of the model. -/
theorem length_of_runRow {attnNorm ffnNorm x row : List F} {position : ℕ}
    {s s' : LlamaCpuExecutor context.hp}
    (h : runRow context l attnNorm ffnNorm x position s = .ok row s') :
    row.length = context.hp.hiddenSize := by
  have hlength := satisfies_runRow_length context l attnNorm ffnNorm x position s trivial
  rwa [h] at hlength

/-- The first rows do not see the rows behind them. -/
theorem runRows_front (attnNorm ffnNorm : List F) (n : ℕ) {ts : List ℕ} {a : ℕ} (hts : ∀ t ∈ ts, t < a)
    {x : List F} (hx : x.length = a * context.hp.hiddenSize) (y : List F) :
    successes (runRows context l attnNorm ffnNorm n ts (x ++ y)) =
      successes (runRows context l attnNorm ffnNorm n ts x) >>= fun out => pure (out ++ y) := by
  induction ts generalizing x with
  | nil => rfl
  | cons t ts ih =>
    have ht : t < a := hts t List.mem_cons_self
    have hfits : t * context.hp.hiddenSize + context.hp.hiddenSize ≤ x.length := by
      rw [hx, ← Nat.succ_mul]
      exact Nat.mul_le_mul_right _ ht
    rw [runRows_cons, runRows_cons, slice_append_left hfits]
    simp only [successes_bind, bind_assoc]
    refine successes_bind_congr fun s row s' hrow => ?_
    have hlength := length_of_runRow hrow
    rw [writeAt_append_left (by omega)]
    exact ih (fun t ht => hts t (List.mem_cons_of_mem _ ht)) (by rw [writeAt_length (by omega), hx])

/-- The rows behind some others, at the positions behind them. -/
theorem runRows_back (attnNorm ffnNorm : List F) (n : ℕ) (ts : List ℕ) {a : ℕ} {x : List F}
    (hx : x.length = a * context.hp.hiddenSize) (y : List F) :
    runRows context l attnNorm ffnNorm n (ts.map (a + ·)) (x ++ y) =
      runRows context l attnNorm ffnNorm (n + a) ts y >>= fun out => pure (x ++ out) := by
  induction ts generalizing y with
  | nil => rfl
  | cons t ts ih =>
    have hoffset : (a + t) * context.hp.hiddenSize = x.length + t * context.hp.hiddenSize := by
      rw [hx, Nat.add_mul]
    rw [List.map_cons, runRows_cons, runRows_cons, hoffset, slice_append_right, ← Nat.add_assoc,
      bind_assoc]
    refine congrArg _ (funext fun row => ?_)
    rw [writeAt_append_right]
    exact ih _

theorem runLayer_eq_runRows (input : List F) (rows n : ℕ) :
    runLayer context l input rows n =
      stateless (tensorVectorToFloat context.tensorContext
        (layerPrefix l ++ ascii "attn_norm.weight") context.hp.hiddenSize) >>= fun attnNorm =>
      stateless (tensorVectorToFloat context.tensorContext
        (layerPrefix l ++ ascii "ffn_norm.weight") context.hp.hiddenSize) >>= fun ffnNorm =>
      runRows context l attnNorm ffnNorm n (List.range rows) input := rfl

/-- Rows stay as wide as they are. -/
theorem length_of_runRows {attnNorm ffnNorm : List F} {n : ℕ} {ts : List ℕ} {a : ℕ}
    (hts : ∀ t ∈ ts, t < a) {x out : List F} (hx : x.length = a * context.hp.hiddenSize)
    {s s' : LlamaCpuExecutor context.hp}
    (h : runRows context l attnNorm ffnNorm n ts x s = .ok out s') :
    out.length = a * context.hp.hiddenSize := by
  have hkept : Satisfies (fun _ => x.length = a * context.hp.hiddenSize)
      (runRows context l attnNorm ffnNorm n ts x)
      (fun output _ => output.length = a * context.hp.hiddenSize) fun _ _ => True := by
    refine satisfies_foldlM (I := fun (output : List F) (_ : LlamaCpuExecutor context.hp) =>
      output.length = a * context.hp.hiddenSize) (fun output t ht s houtput => ?_) x
    have hfits : t * context.hp.hiddenSize + context.hp.hiddenSize ≤ output.length := by
      rw [houtput, ← Nat.succ_mul]
      exact Nat.mul_le_mul_right _ (hts t ht)
    refine satisfies_bind (satisfies_runRow_length context l attnNorm ffnNorm _ _)
      (fun row => ?_) s trivial
    refine satisfies_pure fun _ hrow => ?_
    rw [writeAt_length (by rw [hrow]; exact hfits), houtput]
  have hrun := hkept s hx
  rwa [h] at hrun

/-- One layer on two runs of rows, one behind the other. -/
theorem runLayer_append {a b : ℕ} (n : ℕ) {x : List F} (hx : x.length = a * context.hp.hiddenSize)
    (y : List F) :
    successes (runLayer context l (x ++ y) (a + b) n) =
      (do
        let first ← successes (runLayer context l x a n)
        let second ← successes (runLayer context l y b (n + a))
        pure (first ++ second)) := by
  have hrange : List.range (a + b) = List.range a ++ (List.range b).map (a + ·) := List.range_add
  have hrows (attnNorm ffnNorm : List F) :
      successes (runRows context l attnNorm ffnNorm n (List.range (a + b)) (x ++ y)) =
        (do
          let first ← successes (runRows context l attnNorm ffnNorm n (List.range a) x)
          let second ← successes (runRows context l attnNorm ffnNorm (n + a) (List.range b) y)
          pure (first ++ second)) := by
    have hsplit : runRows context l attnNorm ffnNorm n (List.range (a + b)) (x ++ y) =
        runRows context l attnNorm ffnNorm n (List.range a) (x ++ y) >>= fun out =>
          runRows context l attnNorm ffnNorm n ((List.range b).map (a + ·)) out := by
      rw [hrange]
      exact List.foldlM_append
    have hfront := runRows_front (l := l) attnNorm ffnNorm n
      (fun t ht => List.mem_range.mp ht) hx y
    rw [hsplit, successes_bind, hfront, bind_assoc]
    simp only [pure_bind]
    refine successes_bind_congr fun s first s' hfirst => ?_
    have hlength := length_of_runRows (fun t ht => List.mem_range.mp ht) hx hfirst
    rw [runRows_back attnNorm ffnNorm n (List.range b) hlength y, successes_bind]
    rfl
  rw [runLayer_eq_runRows, runLayer_eq_runRows, runLayer_eq_runRows]
  cases tensorVectorToFloat context.tensorContext (layerPrefix l ++ ascii "attn_norm.weight")
      context.hp.hiddenSize with
  | error message => rfl
  | ok attnNorm =>
    cases tensorVectorToFloat context.tensorContext (layerPrefix l ++ ascii "ffn_norm.weight")
        context.hp.hiddenSize with
    | error message => rfl
    | ok ffnNorm => exact hrows attnNorm ffnNorm

end Rows

section Pieces

variable {context : ExecutorContext F}

/-- A layer keeps the number of rows. -/
theorem length_of_runLayer {l : ℤ} {x out : List F} {rows n : ℕ}
    (hx : x.length = rows * context.hp.hiddenSize) {s s' : LlamaCpuExecutor context.hp}
    (h : runLayer context l x rows n s = .ok out s') :
    out.length = rows * context.hp.hiddenSize := by
  have hlength := satisfies_runLayers_length context [l] n hx s trivial
  have hone : runLayers context [l] x rows n = runLayer context l x rows n := by
    simp only [runLayers, List.foldlM_cons, List.foldlM_nil, bind_pure]
  rwa [hone, h] at hlength

/-- All layers on two runs of rows: the first rows may go through all layers
before the rows behind them, when no layer comes twice. -/
theorem runLayers_rows_append {layers : List ℤ} (hlayers : layers.Nodup) {a b : ℕ} (n : ℕ)
    {x : List F} (hx : x.length = a * context.hp.hiddenSize) (y : List F) :
    successes (runLayers context layers (x ++ y) (a + b) n) =
      (do
        let first ← successes (runLayers context layers x a n)
        let second ← successes (runLayers context layers y b (n + a))
        pure (first ++ second)) := by
  induction layers generalizing x y with
  | nil => rfl
  | cons l layers ih =>
    obtain ⟨hl, hrest⟩ := List.nodup_cons.mp hlayers
    have hcons (input : List F) (rows n : ℕ) :
        successes (runLayers context (l :: layers) input rows n) =
          successes (runLayer context l input rows n) >>= fun out =>
            successes (runLayers context layers out rows n) := by
      rw [← successes_bind]
      rfl
    rw [hcons, hcons, hcons, runLayer_append n hx y]
    calc (do
          let first ← successes (runLayer context l x a n)
          let second ← successes (runLayer context l y b (n + a))
          pure (first ++ second)) >>= (fun out =>
            successes (runLayers context layers out (a + b) n))
        = (do
          let first ← successes (runLayer context l x a n)
          let second ← successes (runLayer context l y b (n + a))
          let first' ← successes (runLayers context layers first a n)
          let second' ← successes (runLayers context layers second b (n + a))
          pure (first' ++ second')) := by
          simp only [bind_assoc, pure_bind]
          refine successes_bind_congr fun s first s' hfirst => bind_congr fun second => ?_
          exact ih hrest (length_of_runLayer hx hfirst) second
      _ = (do
          let first ← successes (runLayer context l x a n)
          let first' ← successes (runLayers context layers first a n)
          let second ← successes (runLayer context l y b (n + a))
          let second' ← successes (runLayers context layers second b (n + a))
          pure (first' ++ second')) := by
          refine bind_congr fun first => ?_
          exact (commutes_runLayers hl y first b (n + a) a n).swap fun second first' =>
            successes (runLayers context layers second b (n + a)) >>= fun second' =>
              pure (first' ++ second')
      _ = _ := by simp only [bind_assoc]

/-- Pieces of some rows, fed one after the other, give on success the rows and
the executor of one run over all of them. -/
theorem successes_runPieces {layers : List ℤ} (hlayers : layers.Nodup) {sizes : List ℕ}
    (hsizes : sizes ≠ []) (n : ℕ) {hidden : List F}
    (hlength : hidden.length = sizes.sum * context.hp.hiddenSize) :
    successes (runPieces context layers hidden sizes n) =
      successes (runLayers context layers hidden sizes.sum n) := by
  induction sizes generalizing hidden n with
  | nil => exact absurd rfl hsizes
  | cons rows sizes ih =>
    have hsum : hidden.length = rows * context.hp.hiddenSize +
        sizes.sum * context.hp.hiddenSize := by
      rw [hlength, List.sum_cons, Nat.add_mul]
    have hfront : (hidden.take (rows * context.hp.hiddenSize)).length =
        rows * context.hp.hiddenSize := by
      rw [List.length_take]
      omega
    have hback : (hidden.drop (rows * context.hp.hiddenSize)).length =
        sizes.sum * context.hp.hiddenSize := by
      rw [List.length_drop]
      omega
    unfold runPieces
    simp only [successes_bind, successes_pure]
    by_cases hlast : sizes = []
    · subst hlast
      have hall : hidden.take (rows * context.hp.hiddenSize) = hidden :=
        List.take_of_length_le (by simp only [List.sum_nil] at hsum; omega)
      simp only [hall, runPieces, successes_pure, pure_bind, List.append_nil, bind_pure,
        List.sum_cons, List.sum_nil, Nat.add_zero]
    · have hcut := runLayers_rows_append hlayers (b := sizes.sum) n hfront
        (hidden.drop (rows * context.hp.hiddenSize))
      rw [List.take_append_drop] at hcut
      rw [List.sum_cons, hcut]
      simp only [ih hlast (n + rows) hback]

/-- However the rows are cut, feeding the pieces one after the other succeeds
with the same rows and leaves the same caches as one run over all rows, when
no layer of the stage is listed twice. -/
theorem pieces_equal_whole {layers : List ℤ} (hlayers : layers.Nodup) {sizes : List ℕ}
    (hsizes : sizes ≠ []) (n : ℕ) {hidden : List F}
    (hlength : hidden.length = sizes.sum * context.hp.hiddenSize)
    (s : LlamaCpuExecutor context.hp) (out : List F) (s' : LlamaCpuExecutor context.hp) :
    runPieces context layers hidden sizes n s = .ok out s' ↔
      runLayers context layers hidden sizes.sum n s = .ok out s' :=
  successes_eq_iff.mp (successes_runPieces hlayers hsizes n hlength) s out s'

end Pieces

section Flipping

open ZeroModel

/-- A square weight with one value on its diagonal. -/
def diagonalTensor (size : ℕ) (value : F) : GgmlTensor F where
  ne0 := size
  ne1 := size
  getRow row := .ok ((List.range size).map fun i => if i = row then value else 0)
  getRow_length _ _ h := by cases h; simp
  mulMat x := .ok ((List.range size).map fun i => value * x.getD i 0)
  mulMat_length _ _ h := by cases h; simp

/-- The weights of a norm, all one. -/
def onesTensor (size : ℕ) : GgmlTensor F where
  ne0 := size
  ne1 := 1
  getRow _ := .ok (List.replicate size 1)
  getRow_length _ _ h := by cases h; exact List.length_replicate
  mulMat _ := .ok [0]
  mulMat_length _ _ h := by cases h; rfl

/-- One head of two components. -/
def pairHyperparams : LlamaExecutorHyperparams Binary32 where
  hiddenSize := 2
  ffnSize := 1
  nHead := 1
  nHeadKv := 1
  headDim := 2
  vocabSize := 2
  rmsEps := 0
  ropeTheta := 1

/-- Layers that take twice the mean of the rows so far away from each row. -/
def flippingContext : ExecutorContext Binary32 where
  hp := pairHyperparams
  tensorContext := fun name =>
    if (ascii "norm.weight").isSuffixOf name then some (onesTensor 2)
    else if (ascii "attn_v.weight").isSuffixOf name then some (diagonalTensor 2 1)
    else if (ascii "attn_output.weight").isSuffixOf name then
      some (diagonalTensor 2 ⟨0xc0000000#32⟩)
    else if (ascii "ffn_down.weight").isSuffixOf name then some (zeroTensor 1 2)
    else if (ascii "ffn_gate.weight").isSuffixOf name ∨ (ascii "ffn_up.weight").isSuffixOf name then
      some (zeroTensor 2 1)
    else some (zeroTensor 2 2)

/-- Two rows of different size. -/
def unevenRows : List Binary32 := [1, 1, ⟨0x40800000#32⟩, ⟨0x40800000#32⟩]

/-- The rows of a successful run. -/
def rowsOf {hp : LlamaExecutorHyperparams Binary32}
    (r : EStateM.Result Bytes (LlamaCpuExecutor hp) (List Binary32)) : Option (List Binary32) :=
  match r with
  | .ok out _ => some out
  | .error _ _ => none

theorem ok_of_rowsOf {hp : LlamaExecutorHyperparams Binary32}
    {r : EStateM.Result Bytes (LlamaCpuExecutor hp) (List Binary32)} {out : List Binary32}
    (h : rowsOf r = some out) : ∃ s, r = .ok out s := by
  cases r with
  | ok a s => exact ⟨s, congrArg (EStateM.Result.ok · s) (Option.some.inj h)⟩
  | error message s => cases h

/-- A stage that lists a layer twice gives other rows when they are fed one by
one: the second pass over the first row overwrites what the first pass over
the second row reads. -/
theorem repeated_layer_depends_on_pieces :
    ∃ out s out' s', runLayers flippingContext [0, 0] unevenRows 2 0 (.fresh pairHyperparams 0) =
        .ok out s ∧
      runPieces flippingContext [0, 0] unevenRows [1, 1] 0 (.fresh pairHyperparams 0) =
        .ok out' s' ∧ out ≠ out' := by
  have hwhole : rowsOf (runLayers flippingContext [0, 0] unevenRows 2 0
      (.fresh pairHyperparams 0)) = some [1, 1, ⟨0x40000000#32⟩, ⟨0x40000000#32⟩] := by
    decide +kernel
  have hpieces : rowsOf (runPieces flippingContext [0, 0] unevenRows [1, 1] 0
      (.fresh pairHyperparams 0)) = some unevenRows := by
    decide +kernel
  obtain ⟨s, hs⟩ := ok_of_rowsOf hwhole
  obtain ⟨s', hs'⟩ := ok_of_rowsOf hpieces
  exact ⟨_, s, _, s', hs, hs', by decide +kernel⟩

/-- Two layers, with the rows fed one by one. -/
theorem pieces_equal_whole_two_layers :
    ∃ out s', runPieces flippingContext [0, 1] unevenRows [1, 1] 0 (.fresh pairHyperparams 0) =
        .ok out s' ∧
      runLayers flippingContext [0, 1] unevenRows 2 0 (.fresh pairHyperparams 0) = .ok out s' := by
  have hpieces : rowsOf (runPieces flippingContext [0, 1] unevenRows [1, 1] 0
      (.fresh pairHyperparams 0)) = some [1, 1, ⟨0x40000000#32⟩, ⟨0x40000000#32⟩] := by
    decide +kernel
  obtain ⟨s', hs'⟩ := ok_of_rowsOf hpieces
  have hequal : runPieces flippingContext [0, 1] unevenRows [1, 1] 0 (.fresh pairHyperparams 0) =
        .ok [1, 1, ⟨0x40000000#32⟩, ⟨0x40000000#32⟩] s' ↔
      runLayers flippingContext [0, 1] unevenRows ([1, 1] : List ℕ).sum 0
        (.fresh pairHyperparams 0) = .ok [1, 1, ⟨0x40000000#32⟩, ⟨0x40000000#32⟩] s' :=
    pieces_equal_whole (by decide) (List.cons_ne_nil _ _) 0 rfl _ _ _
  exact ⟨_, s', hs', hequal.mp hs'⟩

end Flipping

end LayerInference.PrefillChunks
