import Mathlib.Data.List.TakeDrop
import DocExamples.Files

namespace DocExamples

namespace FileLayer

/-- The layer says that `path` is not there, so that a lookup asks the next layer. -/
def Misses (layer : FileLayer) (path : String) : Prop :=
  ∃ e, (layer.openPath path).1 = .error e ∧ e.isNotFound = true

end FileLayer

namespace FsError

/-- The error of a lookup once the `count` layers from index `start` on are grouped into one
overlay: an error tagged with one of them is tagged with the overlay's index around its index in
the group, and an index past the group moves down by `count - 1`. -/
def nest (start count : Nat) : FsError → FsError
  | .layer j e =>
    if j < start then .layer j e
    else if j < start + count then .layer start (.layer (j - start) e)
    else .layer (j + 1 - count) e
  | e => e

/-- An error tagged with a layer's index, moved on by `k`. -/
def shift (k : Nat) : FsError → FsError
  | .layer j e => .layer (j + k) e
  | e => e

theorem io_ne_layer (path : String) (cause : IoFailure) (j : Nat) (e : FsError) :
    io path cause ≠ .layer j e := by
  unfold io
  split <;> simp

@[simp] theorem nest_io (start count : Nat) (path : String) (cause : IoFailure) :
    nest start count (io path cause) = io path cause := by
  unfold io
  split <;> rfl

end FsError

variable {path : String}

section Steps

variable {index : Nat} {layer : FileLayer} {rest : List FileLayer}

@[simp] theorem overlayOpen_nil : (overlayOpen path index []).1 = .error (.notFound path) := rfl

theorem overlayOpen_opened {opened : Opened} (opens : (layer.openPath path).1 = .ok opened) :
    (overlayOpen path index (layer :: rest)).1 = .ok opened := by
  rcases answer : layer.openPath path with ⟨_, log⟩
  rw [answer] at opens
  subst opens
  simp [overlayOpen, answer]

theorem overlayOpen_missed (misses : layer.Misses path) :
    (overlayOpen path index (layer :: rest)).1 = (overlayOpen path (index + 1) rest).1 := by
  obtain ⟨e, fails, notFound⟩ := misses
  rcases answer : layer.openPath path with ⟨_, log⟩
  rw [answer] at fails
  subst fails
  simp [overlayOpen, answer, notFound]

theorem overlayOpen_failed {e : FsError} (fails : (layer.openPath path).1 = .error e)
    (found : e.isNotFound = false) :
    (overlayOpen path index (layer :: rest)).1 = .error (.layer index e) := by
  rcases answer : layer.openPath path with ⟨_, log⟩
  rw [answer] at fails
  subst fails
  simp [overlayOpen, answer, found]

theorem overlayOpen_decided (decides : ¬ layer.Misses path) :
    (overlayOpen path index (layer :: rest)).1 =
      match (layer.openPath path).1 with
      | .ok opened => .ok opened
      | .error e => .error (.layer index e) := by
  cases fails : (layer.openPath path).1 with
  | ok opened => exact overlayOpen_opened fails
  | error e =>
    have found : e.isNotFound = false := by
      cases notFound : e.isNotFound
      · rfl
      · exact absurd ⟨e, fails, notFound⟩ decides
    exact overlayOpen_failed fails found

end Steps

theorem overlayOpen_all_missed {layers : List FileLayer} (missed : ∀ layer ∈ layers, layer.Misses path)
    (index : Nat) : (overlayOpen path index layers).1 = .error (.notFound path) := by
  induction layers generalizing index with
  | nil => rfl
  | cons layer rest ih =>
    rw [overlayOpen_missed (missed layer List.mem_cons_self)]
    exact ih (fun other member => missed other (List.mem_cons_of_mem _ member)) _

/-- A lookup through `pre ++ rest` is a lookup through `pre`, falling through to `rest`, from
the index after `pre`, when the path is not found in `pre`. -/
theorem overlayOpen_append (pre rest : List FileLayer) (index : Nat) :
    (overlayOpen path index (pre ++ rest)).1 =
      match (overlayOpen path index pre).1 with
      | .error (.notFound _) => (overlayOpen path (index + pre.length) rest).1
      | other => other := by
  induction pre generalizing index with
  | nil => simp
  | cons layer pre ih =>
    by_cases misses : layer.Misses path
    · rw [List.cons_append, overlayOpen_missed misses, overlayOpen_missed misses, ih,
        List.length_cons, Nat.add_assoc, Nat.add_comm 1]
    · rw [List.cons_append, overlayOpen_decided misses, overlayOpen_decided misses]
      split <;> rfl

theorem overlayOpen_shift (layers : List FileLayer) (index k : Nat) :
    (overlayOpen path (index + k) layers).1 = (overlayOpen path index layers).1.mapError (FsError.shift k) := by
  induction layers generalizing index with
  | nil => rfl
  | cons layer rest ih =>
    by_cases misses : layer.Misses path
    · rw [overlayOpen_missed misses, overlayOpen_missed misses, Nat.add_right_comm, ih]
    · rw [overlayOpen_decided misses, overlayOpen_decided misses]
      split <;> rfl

section Stops

variable {layers : List FileLayer} {i : Nat}

theorem overlayOpen_drop (passed : ∀ layer ∈ layers.take i, layer.Misses path) (index : Nat) :
    (overlayOpen path index layers).1 = (overlayOpen path (index + i) (layers.drop i)).1 := by
  have whole := @overlayOpen_append path (layers.take i) (layers.drop i) index
  rw [List.take_append_drop, overlayOpen_all_missed passed] at whole
  rw [whole]
  by_cases within : i ≤ layers.length
  · rw [List.length_take_of_le within]
  · rw [List.drop_eq_nil_of_le (by omega), List.length_take, Nat.min_eq_right (by omega)]
    rfl

theorem overlayOpen_stop {layer : FileLayer} (passed : ∀ layer ∈ layers.take i, layer.Misses path)
    (at_ : layers[i]? = some layer) (decides : ¬ layer.Misses path) (index : Nat) :
    (overlayOpen path index layers).1 =
      match (layer.openPath path).1 with
      | .ok opened => .ok opened
      | .error e => .error (.layer (index + i) e) := by
  obtain ⟨within, rfl⟩ := List.getElem?_eq_some_iff.mp at_
  rw [overlayOpen_drop passed, List.drop_eq_getElem_cons within, overlayOpen_decided decides]

theorem exists_stop (layers : List FileLayer) (path : String) :
    (∀ layer ∈ layers, layer.Misses path) ∨
      ∃ i layer, (∀ other ∈ layers.take i, other.Misses path) ∧ layers[i]? = some layer ∧
        ¬ layer.Misses path := by
  induction layers with
  | nil => exact .inl (by simp)
  | cons layer rest ih =>
    by_cases misses : layer.Misses path
    · rcases ih with all | ⟨i, stop, passed, at_, decides⟩
      · exact .inl (List.forall_mem_cons.mpr ⟨misses, all⟩)
      · refine .inr ⟨i + 1, stop, ?_, at_, decides⟩
        rw [List.take_succ_cons]
        exact List.forall_mem_cons.mpr ⟨misses, passed⟩
    · exact .inr ⟨0, layer, by simp, rfl, misses⟩

end Stops

section Reading

variable {layers : List FileLayer} {i : Nat} {layer : FileLayer}

theorem overlayRead_fst (layers : List FileLayer) (path : String) :
    (overlayRead layers path).1 = match (overlayOpen path 0 layers).1 with
      | .ok opened => readOpened path opened
      | .error e => .error e := by
  unfold overlayRead
  split <;> simp_all

/-- The first layer that does not pass decides the read: the file it opens is read, and its error
is tagged with its index. -/
theorem overlayRead_stop (passed : ∀ layer ∈ layers.take i, layer.Misses path)
    (at_ : layers[i]? = some layer) (decides : ¬ layer.Misses path) :
    (overlayRead layers path).1 = match (layer.openPath path).1 with
      | .ok opened => readOpened path opened
      | .error e => .error (.layer i e) := by
  rw [overlayRead_fst, overlayOpen_stop passed at_ decides, Nat.zero_add]
  cases (layer.openPath path).1 <;> rfl

theorem overlayRead_all_missed (missed : ∀ layer ∈ layers, layer.Misses path) :
    (overlayRead layers path).1 = .error (.notFound path) := by
  rw [overlayRead_fst, overlayOpen_all_missed missed]

theorem not_misses_of_answer {answer : Except FsError Opened} (answers : (layer.openPath path).1 = answer)
    (decisive : ∀ e, answer = .error e → e.isNotFound = false) : ¬ layer.Misses path := by
  rintro ⟨e, fails, notFound⟩
  rw [decisive e (answers.symm.trans fails)] at notFound
  cases notFound

/-- What a read through the layers gives: that nothing was found, when every layer passes;
otherwise the answer of the first layer that does not pass, which holds the file, fails to read it,
or fails with an error of its own, tagged with its index. -/
theorem overlayRead_cases (layers : List FileLayer) (path : String) :
    ((∀ layer ∈ layers, layer.Misses path) ∧ (overlayRead layers path).1 = .error (.notFound path)) ∨
      ∃ i layer, (∀ other ∈ layers.take i, other.Misses path) ∧ layers[i]? = some layer ∧
        ((∃ bytes, (layer.openPath path).1 = .ok (.ok bytes) ∧ (overlayRead layers path).1 = .ok bytes) ∨
          (∃ cause, (layer.openPath path).1 = .ok (.error cause) ∧
            (overlayRead layers path).1 = .error (FsError.io path cause)) ∨
          (∃ e, (layer.openPath path).1 = .error e ∧ e.isNotFound = false ∧
            (overlayRead layers path).1 = .error (.layer i e))) := by
  rcases exists_stop layers path with all | ⟨i, layer, passed, at_, decides⟩
  · exact .inl ⟨all, overlayRead_all_missed all⟩
  · have result := overlayRead_stop passed at_ decides
    refine .inr ⟨i, layer, passed, at_, ?_⟩
    cases answer : (layer.openPath path).1 with
    | ok opened =>
      rw [answer] at result
      cases opened with
      | ok bytes => exact .inl ⟨bytes, rfl, result⟩
      | error cause => exact .inr (.inl ⟨cause, rfl, result⟩)
    | error e =>
      rw [answer] at result
      cases notFound : e.isNotFound
      · exact .inr (.inr ⟨e, rfl, notFound, result⟩)
      · exact absurd ⟨e, answer, notFound⟩ decides

end Reading

section Nesting

@[simp] theorem FileLayer.overlay_openPath (layers : List FileLayer) :
    (FileLayer.overlay layers).openPath path = overlayOpen path 0 layers := rfl

namespace FsError

theorem nest_shift_after (start count : Nat) (e : FsError) :
    nest start count (shift (start + count) e) = shift (start + 1) e := by
  cases e with
  | layer j source =>
    simp only [shift, nest]
    rw [if_neg (by omega), if_neg (by omega)]
    congr 1
    omega
  | _ => rfl

theorem nest_layer_within {start count j : Nat} (within : j < count) (e : FsError) :
    nest start count (.layer (start + j) e) = .layer start (.layer j e) := by
  simp only [nest]
  rw [if_neg (by omega), if_pos (by omega), Nat.add_sub_cancel_left]

end FsError

theorem readOpened_nest (start count : Nat) (opened : Opened) :
    (readOpened path opened).mapError (FsError.nest start count) = readOpened path opened := by
  cases opened with
  | ok bytes => rfl
  | error cause => simp [readOpened, Except.mapError]

/-- An overlay of `mid` put where its layers stood answers as they would have: the same file, and
an error tagged with one of them tagged again with the overlay's index. -/
theorem overlayOpen_nest (pre mid post : List FileLayer) (index : Nat) :
    (overlayOpen path index (pre ++ FileLayer.overlay mid :: post)).1 =
      (overlayOpen path index (pre ++ mid ++ post)).1.mapError
        (FsError.nest (index + pre.length) mid.length) := by
  rw [overlayOpen_append, List.append_assoc, overlayOpen_append]
  rcases exists_stop pre path with passedPre | ⟨i, layer, passed, at_, decides⟩
  · rw [overlayOpen_all_missed passedPre]
    dsimp only
    rw [overlayOpen_append]
    rcases exists_stop mid path with passedMid | ⟨k, inMid, passedK, atK, decidesK⟩
    · have missed : (FileLayer.overlay mid).Misses path :=
        ⟨.notFound path, overlayOpen_all_missed passedMid 0, rfl⟩
      rw [overlayOpen_missed missed, overlayOpen_all_missed passedMid]
      dsimp only
      have after := @overlayOpen_shift path post 0 (index + pre.length + 1)
      have flat := @overlayOpen_shift path post 0 (index + pre.length + mid.length)
      rw [Nat.zero_add] at after flat
      rw [after, flat]
      cases (overlayOpen path 0 post).1 with
      | ok opened => rfl
      | error e => simp [Except.mapError, FsError.nest_shift_after]
    · have stops := overlayOpen_stop passedK atK decidesK 0
      have decided : ¬ (FileLayer.overlay mid).Misses path := by
        refine not_misses_of_answer stops fun e failed => ?_
        split at failed
        · cases failed
        · cases failed
          rfl
      have within : k < mid.length := (List.getElem?_eq_some_iff.mp atK).1
      rw [overlayOpen_decided decided, overlayOpen_stop passedK atK decidesK, FileLayer.overlay_openPath,
        stops]
      cases (inMid.openPath path).1 with
      | ok opened => rfl
      | error e => simp [Except.mapError, FsError.nest_layer_within within]
  · rw [overlayOpen_stop passed at_ decides]
    have before : i < pre.length := (List.getElem?_eq_some_iff.mp at_).1
    cases (layer.openPath path).1 with
    | ok opened => rfl
    | error e =>
      simp only [Except.mapError, FsError.nest]
      rw [if_pos (by omega)]

end Nesting

/-- A read through layers takes the first layer that does not say the path is not there: the
read gives the bytes of its file exactly when that layer opens the path and reading succeeds; it
fails with that layer's error tagged with its index exactly when the layer fails to open it with
another error; it fails with the error of reading, untagged, when the layer opens the path and
reading fails; and the path is not found when every layer says it is not there, as for no layers.
No other error is possible. Putting an overlay of some consecutive layers in their place changes
nothing but the indices of tagged errors, which nest. -/
theorem overlayRead_first_answer (layers : List FileLayer) (path : String) :
    let read := (overlayRead layers path).1
    let answers := fun i => layers[i]?.map fun layer => (layer.openPath path).1
    let passedOver := fun i => ∀ layer ∈ layers.take i, layer.Misses path
    (∀ bytes, read = .ok bytes ↔ ∃ i, passedOver i ∧ answers i = some (.ok (.ok bytes))) ∧
    (∀ j e, read = .error (.layer j e) ↔
      passedOver j ∧ answers j = some (.error e) ∧ e.isNotFound = false) ∧
    (∀ i cause, passedOver i → answers i = some (.ok (.error cause)) →
      read = .error (FsError.io path cause)) ∧
    ((∀ layer ∈ layers, layer.Misses path) → read = .error (.notFound path)) ∧
    (∀ e, read = .error e → (∀ j source, e ≠ .layer j source) →
      (∃ i cause, passedOver i ∧ answers i = some (.ok (.error cause)) ∧ e = FsError.io path cause) ∨
        ((∀ layer ∈ layers, layer.Misses path) ∧ e = .notFound path)) ∧
    (∀ pre mid post, layers = pre ++ mid ++ post →
      (overlayRead (pre ++ FileLayer.overlay mid :: post) path).1 =
        read.mapError (FsError.nest pre.length mid.length)) := by
  intro read answers passedOver
  have layerAt {i : Nat} {answer : Except FsError Opened} (at_ : answers i = some answer) :
      ∃ layer, layers[i]? = some layer ∧ (layer.openPath path).1 = answer :=
    Option.map_eq_some_iff.mp at_
  refine ⟨fun bytes => ⟨fun ok => ?_, fun ⟨i, passed, at_⟩ => ?_⟩,
    fun j e => ⟨fun failed => ?_, fun ⟨passed, at_, found⟩ => ?_⟩,
    fun i cause passed at_ => ?_, overlayRead_all_missed,
    fun e failed untagged => ?_, fun pre mid post split => ?_⟩
  · rcases overlayRead_cases layers path with ⟨-, missed⟩ |
      ⟨i, layer, passed, at_, ⟨found, answer, result⟩ | ⟨cause, answer, result⟩ | ⟨e, answer, -, result⟩⟩
    · cases missed.symm.trans ok
    · obtain rfl : found = bytes := Except.ok.inj (result.symm.trans ok)
      exact ⟨i, passed, by simp [answers, at_, answer]⟩
    · cases result.symm.trans ok
    · cases result.symm.trans ok
  · obtain ⟨layer, at_, answer⟩ := layerAt at_
    have decides := not_misses_of_answer answer (by simp)
    simp [read, overlayRead_stop passed at_ decides, answer, readOpened]
  · rcases overlayRead_cases layers path with ⟨-, missed⟩ |
      ⟨i, layer, passed, at_, ⟨found, answer, result⟩ | ⟨cause, answer, result⟩ | ⟨e', answer, notFound, result⟩⟩
    · cases missed.symm.trans failed
    · cases result.symm.trans failed
    · exact absurd (Except.error.inj (result.symm.trans failed)) (FsError.io_ne_layer path cause j e)
    · obtain ⟨rfl, rfl⟩ : i = j ∧ e' = e := by simpa using Except.error.inj (result.symm.trans failed)
      exact ⟨passed, by simp [answers, at_, answer], notFound⟩
  · obtain ⟨layer, at_, answer⟩ := layerAt at_
    have decides := not_misses_of_answer answer (by simp_all)
    simp [read, overlayRead_stop passed at_ decides, answer]
  · obtain ⟨layer, at_, answer⟩ := layerAt at_
    have decides := not_misses_of_answer answer (by simp)
    simp [read, overlayRead_stop passed at_ decides, answer, readOpened]
  · rcases overlayRead_cases layers path with ⟨all, missed⟩ |
      ⟨i, layer, passed, at_, ⟨found, answer, result⟩ | ⟨cause, answer, result⟩ | ⟨e', answer, -, result⟩⟩
    · exact .inr ⟨all, Except.error.inj (failed.symm.trans missed)⟩
    · cases result.symm.trans failed
    · exact .inl ⟨i, cause, passed, by simp [answers, at_, answer], Except.error.inj (failed.symm.trans result)⟩
    · exact absurd (Except.error.inj (failed.symm.trans result)) (untagged i e')
  · subst split
    rw [overlayRead_fst, overlayOpen_nest, Nat.zero_add]
    simp only [read, overlayRead_fst]
    cases (overlayOpen path 0 (pre ++ mid ++ post)).1 with
    | ok opened => exact (readOpened_nest _ _ opened).symm
    | error e => rfl

end DocExamples
