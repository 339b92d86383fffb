import Mathlib.Data.List.Nodup
import Mathlib.Data.List.Flatten

/-!
# Batches

Items are sent in batches of a limited size, and batch after batch until one fails. The batches
put together are the items, and what was sent is the beginning of what was to be sent.
-/

namespace TutaBridge.Std.Batches

variable {α ε : Type}

/-! ## Chunks -/

/-- The chunks of the items behind those of the chunk that is being filled. -/
def chunksFrom (size : Nat) (chunk : List α) : List α → List (List α)
  | [] => if chunk.isEmpty then [] else [chunk]
  | item :: rest =>
    if chunk.length + 1 < size then chunksFrom size (chunk ++ [item]) rest
    else (chunk ++ [item]) :: chunksFrom size [] rest

/-- `slice::chunks`, for a size that is not zero. -/
def chunks (size : Nat) (items : List α) : List (List α) := chunksFrom size [] items

example : chunks 2 [1, 2, 3, 4, 5] = [[1, 2], [3, 4], [5]] := by decide

theorem flatten_chunksFrom (size : Nat) (chunk items : List α) :
    (chunksFrom size chunk items).flatten = chunk ++ items := by
  induction items generalizing chunk with
  | nil =>
    rw [chunksFrom, List.append_nil]
    split
    next isEmpty => exact (List.isEmpty_iff.mp isEmpty).symm
    next => exact List.append_nil chunk
  | cons item rest ih =>
    rw [chunksFrom]
    split
    · rw [ih, List.append_assoc, List.singleton_append]
    · rw [List.flatten_cons, ih, List.append_assoc, List.nil_append,
        List.singleton_append]

/-- The chunks put together are the items. -/
@[simp] theorem flatten_chunks (size : Nat) (items : List α) : (chunks size items).flatten = items :=
  flatten_chunksFrom size [] items

theorem length_of_mem_chunksFrom {size : Nat} {chunk items part : List α} (room : chunk.length < size)
    (mem : part ∈ chunksFrom size chunk items) : part ≠ [] ∧ part.length ≤ size := by
  induction items generalizing chunk with
  | nil =>
    rw [chunksFrom] at mem
    split at mem
    next => cases mem
    next notEmpty =>
      rw [List.mem_singleton.mp mem]
      exact ⟨fun isEmpty => notEmpty (List.isEmpty_iff.mpr isEmpty), Nat.le_of_lt room⟩
  | cons item rest ih =>
    rw [chunksFrom] at mem
    split at mem
    next more => exact ih (by simpa using more) mem
    next full =>
      rcases List.mem_cons.mp mem with rfl | later
      · refine ⟨List.concat_ne_nil item chunk, ?_⟩
        rw [List.length_append, List.length_singleton]
        omega
      · exact @ih [] (Nat.zero_lt_of_lt room) later

/-- No chunk is empty, and none is longer than the size. -/
theorem length_of_mem_chunks {size : Nat} (positive : 0 < size) {items part : List α}
    (mem : part ∈ chunks size items) : part ≠ [] ∧ part.length ≤ size :=
  @length_of_mem_chunksFrom _ size [] items part positive mem

/-- What is in a chunk is an item. -/
theorem mem_of_mem_chunks {size : Nat} {items part : List α} {item : α}
    (isPart : part ∈ chunks size items) (mem : item ∈ part) : item ∈ items := by
  rw [← flatten_chunks size items]
  exact List.mem_flatten_of_mem isPart mem

/-! ## Sending -/

/-- Requests are sent one after the other until one fails. A server's answer may depend on what
was sent before. The result is what was sent, and whether all of it succeeded. -/
def sendAll (answer : List α → α → Except ε Unit) (sent : List α) : List α → List α × Except ε Unit
  | [] => (sent, .ok ())
  | request :: rest =>
    match answer sent request with
    | .ok () => sendAll answer (sent ++ [request]) rest
    | .error error => (sent ++ [request], .error error)

/-- What is sent are the first of the requests, and all of them if all succeed. -/
theorem sendAll_isPrefixOf (answer : List α → α → Except ε Unit) (sent requests : List α) :
    (sendAll answer sent requests).1 <+: sent ++ requests ∧
      ((sendAll answer sent requests).2 = .ok () → (sendAll answer sent requests).1 = sent ++ requests) := by
  induction requests generalizing sent with
  | nil =>
    rw [List.append_nil]
    exact ⟨List.prefix_refl sent, fun _ => rfl⟩
  | cons request rest ih =>
    have whole : sent ++ request :: rest = sent ++ [request] ++ rest := by simp
    rw [sendAll, whole]
    cases answer sent request with
    | ok done => exact ih (sent ++ [request])
    | error error => exact ⟨List.prefix_append _ _, fun succeeds => by cases succeeds⟩

end TutaBridge.Std.Batches
