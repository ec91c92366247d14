import RustdResolved.Wire.Octets

/-! # Messages of a Varlink connection

A client sends messages that end with a zero octet. `serve_connection` appends what it reads to what
is pending and takes the messages off it. What becomes of a message is left to a dispatcher, which
goes on or ends the connection. The limit for what is pending is tested after each read, on the
unfinished message and the whole read together. -/

namespace RustdResolved.Varlink.Framing

open List Wire.Octets

def maxMessageSize : Nat := 1024 * 1024

/-- The length of the buffer that is read into. -/
def chunkSize : Nat := 8192

inductive Ending
  | closed
  | served
  | tooLarge
  deriving DecidableEq, Repr

section Serve

variable (goesOn : List Bytes → Bool)

/-- Takes messages off what is pending: octets without a zero octet, and octets to be searched. The
rest stays pending, if the dispatcher goes on after the messages so far. -/
def drain : Bytes → Bytes → List Bytes → List Bytes × Option Bytes
  | message, [], processed => (processed, some message)
  | message, byte :: rest, processed =>
    if byte = 0 then
      if goesOn (processed ++ [message]) then drain [] rest (processed ++ [message])
      else (processed ++ [message], none)
    else drain (message ++ [byte]) rest processed

/-- The messages that are processed and the end of the connection. -/
def serveConnection : List Bytes → Bytes → List Bytes → List Bytes × Ending
  | [], _, processed => (processed, .closed)
  | chunk :: reads, pending, processed =>
    if maxMessageSize < (pending ++ chunk).length then (processed, .tooLarge)
    else
      match drain goesOn pending chunk processed with
      | (processed, none) => (processed, .served)
      | (processed, some pending) => serveConnection reads pending processed

def ending : List Bytes × Option Bytes → List Bytes × Ending
  | (processed, none) => (processed, .served)
  | (processed, some _) => (processed, .closed)

/-- The messages of a stream, whichever way it is read. -/
def messagesOf (stream : Bytes) : List Bytes × Ending := ending (drain goesOn [] stream [])

end Serve

/-- A way of cutting a stream into reads. -/
def IsReading (stream : Bytes) (reads : List Bytes) : Prop :=
  reads.flatten = stream ∧ ∀ chunk ∈ reads, chunk ≠ [] ∧ chunk.length ≤ chunkSize

def push (message : Bytes) (byte : UInt8) : Bytes := if byte = 0 then [] else message ++ [byte]

/-- The octets after the last zero octet. -/
def unfinished (bytes : Bytes) : Bytes := bytes.foldl push []

/-- Wherever a read begins, the unfinished message and as much as can be read at once are within the
limit. -/
def Fits (stream : Bytes) : Prop :=
  ∀ before after, before ++ after = stream → after ≠ [] →
    (unfinished before).length + min chunkSize after.length ≤ maxMessageSize

variable {goesOn : List Bytes → Bool} {message chunk before after : Bytes}
  {processed processed' reads : List Bytes}

theorem drain_append : drain goesOn message (before ++ after) processed =
    match drain goesOn message before processed with
    | (processed, none) => (processed, none)
    | (processed, some message) => drain goesOn message after processed := by
  induction before generalizing message processed with
  | nil => rfl
  | cons byte before ih =>
    simp only [cons_append, drain]
    split_ifs
    · exact ih
    · rfl
    · exact ih

theorem drain_some {rest : Bytes}
    (h : drain goesOn message chunk processed = (processed', some rest)) :
    rest = chunk.foldl push message := by
  induction chunk generalizing message processed with
  | nil =>
    cases h
    rfl
  | cons byte chunk ih =>
    simp only [drain] at h
    rw [foldl_cons, push]
    split_ifs at h ⊢
    · exact ih h
    · cases h
    · exact ih h

/-- Reads within the limit give the messages of the stream. -/
theorem serveConnection_of_fits (hfits : Fits (before ++ reads.flatten))
    (hreads : ∀ chunk ∈ reads, chunk ≠ [] ∧ chunk.length ≤ chunkSize) :
    serveConnection goesOn reads (unfinished before) processed =
      ending (drain goesOn (unfinished before) reads.flatten processed) := by
  induction reads generalizing before processed with
  | nil => rfl
  | cons chunk reads ih =>
    obtain ⟨⟨hne, hle⟩, hrest⟩ := forall_mem_cons.mp hreads
    have hnow := hfits before (chunk ++ reads.flatten) rfl (by simp [hne])
    rw [length_append] at hnow
    rw [flatten_cons, ← append_assoc] at hfits
    rw [serveConnection, if_neg (by rw [length_append]; omega), flatten_cons, drain_append]
    match hdrain : drain goesOn (unfinished before) chunk processed with
    | (_, none) => rfl
    | (_, some _) =>
      obtain rfl := (drain_some hdrain).trans foldl_append.symm
      exact ih hfits hrest

/-- Octets that are read one at a time are rejected, or leave the unfinished message. -/
theorem tooLarge_of_singles (h : ∀ processed,
      (serveConnection (fun _ => true) reads (before.foldl push message) processed).2 = .tooLarge) :
    (serveConnection (fun _ => true) (before.map ([·]) ++ reads) message processed).2 =
      .tooLarge := by
  induction before generalizing message processed with
  | nil => exact h processed
  | cons byte before ih =>
    simp only [map_cons, cons_append, serveConnection, drain, foldl_cons, push] at h ⊢
    split_ifs at h ⊢
    · rfl
    · rfl
    · exact ih h
    · exact ih h

theorem exists_tooLarge
    (hlong : maxMessageSize < (unfinished before).length + min chunkSize after.length)
    (hne : after ≠ []) : ∃ reads, IsReading (before ++ after) reads ∧
      (serveConnection (fun _ => true) reads [] []).2 = .tooLarge := by
  have hflatten : ∀ bytes : Bytes, (bytes.map ([·])).flatten = bytes := fun bytes => by
    rw [← flatMap_def]; exact flatMap_singleton' bytes
  refine ⟨before.map ([·]) ++ after.take chunkSize :: (after.drop chunkSize).map ([·]), ⟨?_, ?_⟩,
    ?_⟩
  · rw [flatten_append, flatten_cons, hflatten, hflatten, take_append_drop]
  · intro chunk hchunk
    simp only [mem_append, mem_cons, mem_map] at hchunk
    rcases hchunk with ⟨_, -, rfl⟩ | rfl | ⟨_, -, rfl⟩
    · exact ⟨cons_ne_nil _ _, Nat.le_of_ble_eq_true rfl⟩
    · exact ⟨by simp [chunkSize, hne], length_take_le _ _⟩
    · exact ⟨cons_ne_nil _ _, Nat.le_of_ble_eq_true rfl⟩
  · refine tooLarge_of_singles fun processed => ?_
    rw [serveConnection, if_pos]
    rw [length_append, length_take]
    exact hlong

/-- **The messages that are processed do not depend on how the stream is cut into reads**, and none
is rejected as too large, exactly for the streams that fit. -/
theorem framing_iff (stream : Bytes) :
    (∀ goesOn reads, IsReading stream reads →
      serveConnection goesOn reads [] [] = messagesOf goesOn stream) ↔ Fits stream := by
  constructor
  · rintro h before after rfl hne
    by_contra hlong
    obtain ⟨reads, hreading, hlarge⟩ := exists_tooLarge (not_le.mp hlong) hne
    rw [h _ reads hreading, messagesOf] at hlarge
    match hdrain : drain (fun _ => true) [] (before ++ after) [] with
    | (_, none) | (_, some _) =>
      rw [hdrain] at hlarge
      cases hlarge
  · rintro hfits goesOn reads ⟨rfl, hreads⟩
    exact @serveConnection_of_fits goesOn [] [] reads hfits hreads

theorem foldl_push (h : 0 ∉ chunk) : chunk.foldl push message = message ++ chunk := by
  induction chunk generalizing message with
  | nil => simp
  | cons byte chunk ih =>
    rw [mem_cons, not_or] at h
    rw [foldl_cons, push, if_neg (Ne.symm h.1), ih h.2, append_assoc, singleton_append]

/-- A message of the greatest length, and a short one whose octets are read together with the last
one of the first. -/
theorem pipelined_message_too_large :
    ∃ first second : Bytes, 0 ∉ first ∧ 0 ∉ second ∧ (first ++ [0]).length ≤ maxMessageSize ∧
      (second ++ [0]).length ≤ maxMessageSize ∧ ∃ reads,
        IsReading (first ++ ([0] ++ second ++ [0])) reads ∧
          (serveConnection (fun _ => true) reads [] []).2 = .tooLarge := by
  have hpos : 0 < maxMessageSize := by decide
  have hfirst : (0 : UInt8) ∉ replicate (maxMessageSize - 1) 1 := by simp
  refine ⟨replicate (maxMessageSize - 1) 1, [1], hfirst, by decide, ?_, by decide,
    exists_tooLarge ?_ (by simp)⟩
  · rw [length_append, length_replicate, length_singleton]
    omega
  · rw [unfinished, foldl_push hfirst, nil_append, length_replicate]
    have : min chunkSize ([0] ++ [1] ++ [0] : Bytes).length = 3 := rfl
    omega

end RustdResolved.Varlink.Framing
