import AgentResolver.Skill.Fetch
import AgentResolver.Skill.Settling
import AgentResolver.Web.Scalars
import AgentResolver.Web.Utf8RoundTrip

/-!
# The body that a SKILL.md request delivers

What the handlers of `requestSkill` make of the chunks, for events in any order. Read `Tracks`
first: it relates the handlers' variables to the events so far. A resolved body is the decoding of
all the bytes before the end, never a part of them (`resolved_body_complete`). Its hash is over the
text, so it is over the bytes themselves exactly when they are well-formed UTF-8
(`content_hash_input`).
-/

namespace AgentResolver

open JavaScript Web
open Interaction

/-! ## Runs of the handlers -/

/-- The variables after the handlers of a list of events, whatever their order. -/
def runHandlers (maxBytes : Nat) (events : List RequestEvent) : Handlers :=
  events.foldl (fun handlers event => (handle maxBytes handlers event).1) .initial

/-- The chunk of a `data` event. -/
def RequestEvent.chunk : RequestEvent → Option (List UInt8)
  | .data chunk => some chunk
  | _ => none

/-- The bytes of all the chunks that the events deliver. -/
def deliveredBytes (events : List RequestEvent) : List UInt8 :=
  (events.filterMap RequestEvent.chunk).flatten

variable {maxBytes : Nat} {events : List RequestEvent} {event : RequestEvent}

@[simp] theorem run_handlers_snoc (events : List RequestEvent) (event : RequestEvent) :
    runHandlers maxBytes (events ++ [event]) =
      (handle maxBytes (runHandlers maxBytes events) event).1 := by
  rw [runHandlers, List.foldl_append]
  rfl

@[simp] theorem delivered_bytes_append (before after : List RequestEvent) :
    deliveredBytes (before ++ after) = deliveredBytes before ++ deliveredBytes after := by
  simp [deliveredBytes]

@[simp] theorem delivered_bytes_data (chunk : List UInt8) :
    deliveredBytes [.data chunk] = chunk := by
  simp [deliveredBytes, RequestEvent.chunk]

/-- An event without a chunk delivers nothing. -/
theorem delivered_bytes_snoc (h : event.chunk = none) :
    deliveredBytes (events ++ [event]) = deliveredBytes events := by
  simp [deliveredBytes, h]

/-- The handlers of a run of the client are those of its events. -/
theorem run_events_handlers {state : RequestState}
    (hrun : runEvents (deliver maxBytes) .initial events = some state) :
    state.handlers = runHandlers maxBytes events := by
  suffices h : ∀ (start : RequestState),
      runEvents (deliver maxBytes) start events = some state →
        state.handlers =
          events.foldl (fun handlers event => (handle maxBytes handlers event).1) start.handlers by
    exact h .initial hrun
  clear hrun
  induction events with
  | nil =>
      intro start hrun
      exact congrArg RequestState.handlers (Option.some.inj hrun).symm
  | cons event rest ih =>
      intro start hrun
      obtain ⟨next, hnext, hrest⟩ := run_events_cons.mp hrun
      obtain ⟨-, rfl⟩ := deliver_eq_some.mp hnext
      exact ih _ hrest

/-! ## The variables and the events so far -/

/-- The response of the `error` handler. -/
def IsErrorResponse (events : List RequestEvent) (response : Response) : Prop :=
  ∃ message, RequestEvent.error message ∈ events ∧ response = ⟨some 0, none, some message⟩

/-- The response of the `end` handler: all bytes before the first end, which fit the limit. -/
def IsBodyResponse (maxBytes : Nat) (events : List RequestEvent) (response : Response) : Prop :=
  ∃ before after status, events = before ++ .endOfBody :: after ∧ .endOfBody ∉ before ∧
    (deliveredBytes before).length ≤ maxBytes ∧
    response = ⟨some status, some (ofScalars (decode (deliveredBytes before))), none⟩

/-- What the variables say about the events so far. -/
structure Tracks (maxBytes : Nat) (events : List RequestEvent) (handlers : Handlers) : Prop where
  size : handlers.size = (deliveredBytes events).length
  kept : handlers.aborted = false →
    handlers.chunks.flatten = deliveredBytes events ∧ (deliveredBytes events).length ≤ maxBytes
  ended : .endOfBody ∈ events → handlers.promise.isSome ∨ handlers.aborted = true
  resolved : ∀ response, handlers.promise = some response →
    IsErrorResponse events response ∨ IsBodyResponse maxBytes events response

theorem IsErrorResponse.snoc {response : Response} (h : IsErrorResponse events response) :
    IsErrorResponse (events ++ [event]) response := by
  obtain ⟨message, hmem, rfl⟩ := h
  exact ⟨message, List.mem_append_left _ hmem, rfl⟩

theorem IsBodyResponse.snoc {response : Response} (h : IsBodyResponse maxBytes events response) :
    IsBodyResponse maxBytes (events ++ [event]) response := by
  obtain ⟨before, after, status, rfl, hend, hsize, rfl⟩ := h
  exact ⟨before, after ++ [event], status, by simp, hend, hsize, rfl⟩

theorem tracks_initial : Tracks maxBytes [] .initial where
  size := rfl
  kept _ := ⟨rfl, Nat.zero_le _⟩
  ended h := absurd h List.not_mem_nil
  resolved _ h := by simp [Handlers.initial] at h

/-- An event that is not the end of the body and delivers nothing, with the promise as it was or
resolved with the error. -/
theorem Tracks.quiet {handlers next : Handlers} (h : Tracks maxBytes events handlers)
    (hchunk : event.chunk = none) (hend : event ≠ .endOfBody)
    (hsize : next.size = handlers.size) (hchunks : next.chunks = handlers.chunks)
    (haborted : next.aborted = handlers.aborted)
    (hkept : handlers.promise.isSome → next.promise.isSome)
    (hresolved : ∀ response, next.promise = some response →
      handlers.promise = some response ∨ IsErrorResponse (events ++ [event]) response) :
    Tracks maxBytes (events ++ [event]) next where
  size := by rw [hsize, h.size, delivered_bytes_snoc hchunk]
  kept := by
    rw [haborted, hchunks, delivered_bytes_snoc hchunk]
    exact h.kept
  ended hmem := by
    have hbefore : .endOfBody ∈ events := by
      rcases List.mem_append.mp hmem with hmem | hmem
      · exact hmem
      · exact absurd (List.mem_singleton.mp hmem).symm hend
    rw [haborted]
    exact (h.ended hbefore).imp_left hkept
  resolved response hresponse := by
    rcases hresolved response hresponse with hearlier | herror
    · exact (h.resolved response hearlier).imp IsErrorResponse.snoc IsBodyResponse.snoc
    · exact Or.inl herror

/-- A chunk: kept while the total fits the limit, and the request is aborted otherwise. -/
theorem Tracks.data {handlers : Handlers} (h : Tracks maxBytes events handlers)
    (chunk : List UInt8) :
    Tracks maxBytes (events ++ [.data chunk]) (handle maxBytes handlers (.data chunk)).1 := by
  have hresolved : ∀ response, handlers.promise = some response →
      IsErrorResponse (events ++ [.data chunk]) response ∨
        IsBodyResponse maxBytes (events ++ [.data chunk]) response := by
    intro response hresponse
    exact (h.resolved response hresponse).imp IsErrorResponse.snoc IsBodyResponse.snoc
  have hended : .endOfBody ∈ events ++ [RequestEvent.data chunk] →
      handlers.promise.isSome ∨ handlers.aborted = true := by
    intro hmem
    rcases List.mem_append.mp hmem with hmem | hmem
    · exact h.ended hmem
    · cases List.mem_singleton.mp hmem
  have hsize : handlers.size + chunk.length =
      (deliveredBytes (events ++ [.data chunk])).length := by
    rw [h.size, delivered_bytes_append, delivered_bytes_data, List.length_append]
  simp only [handle]
  split
  · refine ⟨hsize, ?_, fun _ => Or.inr rfl, hresolved⟩
    intro haborted
    cases haborted
  · rename_i hfits
    refine ⟨hsize, ?_, hended, hresolved⟩
    intro haborted
    obtain ⟨hchunks, -⟩ := h.kept haborted
    refine ⟨?_, by omega⟩
    show (handlers.chunks ++ [chunk]).flatten = _
    rw [delivered_bytes_append, delivered_bytes_data, List.flatten_append, hchunks,
      List.flatten_singleton]

/-- The end of the body resolves the promise unless the request was aborted. When it does, no
earlier end can have left the promise pending, so this is the first. -/
theorem Tracks.endOfBody {handlers : Handlers} (h : Tracks maxBytes events handlers) :
    Tracks maxBytes (events ++ [.endOfBody]) (handle maxBytes handlers .endOfBody).1 := by
  have hbytes : deliveredBytes (events ++ [.endOfBody]) = deliveredBytes events :=
    delivered_bytes_snoc rfl
  have hearlier : ∀ response, handlers.promise = some response →
      IsErrorResponse (events ++ [.endOfBody]) response ∨
        IsBodyResponse maxBytes (events ++ [.endOfBody]) response := by
    intro response hresponse
    exact (h.resolved response hresponse).imp IsErrorResponse.snoc IsBodyResponse.snoc
  simp only [handle]
  split
  · rename_i haborted
    refine ⟨by rw [h.size, hbytes], ?_, fun _ => Or.inr haborted, hearlier⟩
    rw [hbytes]
    exact h.kept
  · rename_i haborted
    have haborted : handlers.aborted = false := by simpa using haborted
    refine ⟨?_, ?_, fun _ => Or.inl (resolve_is_some _ _), ?_⟩
    · rw [hbytes]
      exact h.size
    · rw [hbytes]
      exact h.kept
    intro response hresponse
    cases hpromise : handlers.promise with
    | some earlier =>
        rw [resolve_settled hpromise] at hresponse
        exact hearlier response (hpromise.trans hresponse)
    | none =>
        rw [resolve_pending hpromise] at hresponse
        have hfirst : .endOfBody ∉ events := by
          intro hmem
          rcases h.ended hmem with hsome | htrue
          · simp [hpromise] at hsome
          · simp [haborted] at htrue
        obtain ⟨hchunks, hsize⟩ := h.kept haborted
        refine Or.inr ⟨events, [], handlers.statusCode.getD 0, rfl, hfirst, hsize, ?_⟩
        rw [← Option.some.inj hresponse, hchunks]

/-- One event keeps the relation. -/
theorem tracks_step {handlers : Handlers} (h : Tracks maxBytes events handlers)
    (event : RequestEvent) :
    Tracks maxBytes (events ++ [event]) (handle maxBytes handlers event).1 := by
  cases event with
  | data chunk => exact h.data chunk
  | endOfBody => exact h.endOfBody
  | error message =>
      refine h.quiet rfl (by simp) rfl rfl rfl (fun _ => resolve_is_some _ _) ?_
      intro response hresponse
      cases hpromise : handlers.promise with
      | some earlier =>
          rw [handle, resolve_settled hpromise] at hresponse
          exact Or.inl hresponse
      | none =>
          rw [handle, resolve_pending hpromise] at hresponse
          exact Or.inr ⟨message, by simp, (Option.some.inj hresponse).symm⟩
  | timeout => exact h.quiet rfl (by simp) rfl rfl rfl id fun _ => Or.inl
  | response statusCode => exact h.quiet rfl (by simp) rfl rfl rfl id fun _ => Or.inl
  | dropped => exact h.quiet rfl (by simp) rfl rfl rfl id fun _ => Or.inl
  | close => exact h.quiet rfl (by simp) rfl rfl rfl id fun _ => Or.inl

/-- The relation holds after every list of events. -/
theorem tracks_run (events : List RequestEvent) :
    Tracks maxBytes events (runHandlers maxBytes events) := by
  induction events using List.reverseRecOn with
  | nil => exact tracks_initial
  | append_singleton events event ih =>
      rw [run_handlers_snoc]
      exact tracks_step ih event

/-! ## Whole bodies -/

/-- A prefix without the end of the body is a prefix of what comes before the end. -/
theorem prefix_before_end {before after head tail : List RequestEvent}
    (h : before ++ after = head ++ .endOfBody :: tail) (hend : .endOfBody ∉ before) :
    ∃ between, head = before ++ between := by
  rcases List.append_eq_append_iff.mp h with ⟨between, hhead, -⟩ | ⟨between, hbefore, hrest⟩
  · exact ⟨between, hhead⟩
  · cases between with
    | nil => exact ⟨[], by simpa using hbefore.symm⟩
    | cons first between =>
        obtain ⟨rfl, -⟩ := List.cons.inj hrest
        exact absurd (by simp [hbefore]) hend

/-- For events in any order, a promise that resolves with a body resolves with the decoding of
all the bytes delivered before the end, and these fit the limit. Once the bytes exceed the limit
before the end, only an error resolves it. -/
theorem resolved_body_complete (maxBytes : Nat) (events : List RequestEvent) (response : Response)
    (h : (runHandlers maxBytes events).promise = some response) :
    (∀ body, response.body = some body →
      ∃ before after, events = before ++ .endOfBody :: after ∧ .endOfBody ∉ before ∧
        (deliveredBytes before).length ≤ maxBytes ∧
        body = ofScalars (decode (deliveredBytes before))) ∧
    ∀ before after, events = before ++ after → .endOfBody ∉ before →
      maxBytes < (deliveredBytes before).length →
        ∃ message, .error message ∈ events ∧ response = ⟨some 0, none, some message⟩ := by
  have hresolved := (tracks_run events).resolved response h
  refine ⟨?_, ?_⟩
  · intro body hbody
    rcases hresolved with ⟨message, -, rfl⟩ | ⟨before, after, status, hsplit, hend, hsize, rfl⟩
    · cases hbody
    · exact ⟨before, after, hsplit, hend, hsize, (Option.some.inj hbody).symm⟩
  · intro before after hsplit hend hlarge
    rcases hresolved with herror | ⟨head, tail, status, hhead, -, hsize, -⟩
    · exact herror
    · obtain ⟨between, rfl⟩ := prefix_before_end (hsplit.symm.trans hhead) hend
      rw [delivered_bytes_append, List.length_append] at hsize
      omega

/-- A body in two chunks, and a body that exceeds its limit and ends all the same. -/
theorem resolved_body_complete_example :
    (∃ before after, [.response (some 200), .data [72], .data [105], .endOfBody] =
        before ++ RequestEvent.endOfBody :: after ∧ .endOfBody ∉ before ∧
      (deliveredBytes before).length ≤ 2 ∧
      text "Hi" = ofScalars (decode (deliveredBytes before))) ∧
    ∃ message, RequestEvent.error message ∈
        [.response (some 200), .data [72, 105], .data [33], .error (text "large"), .endOfBody] ∧
      (⟨some 0, none, some (text "large")⟩ : Response) = ⟨some 0, none, some message⟩ := by
  refine ⟨?_, ?_⟩
  · exact (resolved_body_complete 2
      [.response (some 200), .data [72], .data [105], .endOfBody] _ rfl).1 (text "Hi") rfl
  · exact (resolved_body_complete 2
      [.response (some 200), .data [72, 105], .data [33], .error (text "large"), .endOfBody]
      _ rfl).2 [.response (some 200), .data [72, 105], .data [33]]
        [.error (text "large"), .endOfBody] rfl (by simp) (by decide)

/-! ## The content hash -/

/-- The events of a response whose body arrives whole, in the given chunks. -/
def wholeResponse (status : Int) (chunks : List (List UInt8)) : List RequestEvent :=
  .response (some status) :: chunks.map .data ++ [.endOfBody]

/-- The bytes that `sha256(content)` hashes: the UTF-8 encoding of the text. -/
def hashInput (content : JSString) : List UInt8 := encode (toScalars content)

theorem sha256_input (platform : Platform) (content : JSString) :
    sha256 platform content = platform.sha256 (hashInput content) := rfl

/-- The text of a body is hashed as its decoding, encoded again. -/
theorem hash_input_of_body (bytes : List UInt8) :
    hashInput (ofScalars (decode bytes)) = encode (decode bytes) := by
  rw [hashInput, to_scalars_of_scalars]

/-- Chunks that fit the limit are delivered while the body is read, and all kept. -/
theorem deliver_chunks {handlers : Handlers} {connection : Connection}
    (hopen : connection.closed = false) (hreading : connection.reading = true)
    (chunks : List (List UInt8)) (hsize : handlers.size + chunks.flatten.length ≤ maxBytes) :
    runEvents (deliver maxBytes) ⟨handlers, connection⟩ (chunks.map .data) =
      some ⟨{ handlers with
        size := handlers.size + chunks.flatten.length
        chunks := handlers.chunks ++ chunks }, connection⟩ := by
  induction chunks generalizing handlers with
  | nil => simp
  | cons chunk rest ih =>
      rw [List.flatten_cons, List.length_append] at hsize
      have hfits : ¬ handlers.size + chunk.length > maxBytes := by omega
      have hnext : connection.after (.data chunk) none = connection := by
        cases connection
        simp [Connection.after]
      have hstep : deliver maxBytes ⟨handlers, connection⟩ (.data chunk) =
          some ⟨{ handlers with
            size := handlers.size + chunk.length
            chunks := handlers.chunks ++ [chunk] }, connection⟩ := by
        refine deliver_eq_some.mpr ⟨?_, ?_⟩
        · simp [Connection.allows, hopen, hreading]
        · simp only [handle, if_neg hfits, hnext]
      refine run_events_cons.mpr ⟨_, hstep, ?_⟩
      rw [ih (by simpa [Nat.add_assoc] using hsize)]
      simp [Nat.add_assoc]

/-- A body that fits the limit is delivered, and resolves the promise with its decoding. -/
theorem whole_response_resolves (status : Int) {chunks : List (List UInt8)}
    (hsize : chunks.flatten.length ≤ maxBytes) :
    ∃ state, runEvents (deliver maxBytes) .initial (wholeResponse status chunks) = some state ∧
      state.handlers.promise =
        some ⟨some status, some (ofScalars (decode chunks.flatten)), none⟩ := by
  have hchunks := @deliver_chunks maxBytes ⟨some status, [], 0, false, none⟩
    ⟨true, false, false, none, false, false⟩ rfl rfl chunks
    ((Nat.zero_add _).symm ▸ hsize)
  have hrun : runEvents (deliver maxBytes) .initial (wholeResponse status chunks) =
      runEvents (deliver maxBytes) ⟨⟨some status, chunks, 0 + chunks.flatten.length, false, none⟩,
        ⟨true, false, false, none, false, false⟩⟩ [.endOfBody] := by
    rw [wholeResponse, List.cons_append]
    show runEvents (deliver maxBytes) ⟨⟨some status, [], 0, false, none⟩,
      ⟨true, false, false, none, false, false⟩⟩ (chunks.map .data ++ [.endOfBody]) = _
    rw [run_events_append, hchunks]
    rfl
  rw [hrun]
  exact ⟨_, rfl, rfl⟩

/-- `fetchCandidate` hashes the given bytes when `requestSkill` receives the chunks, whatever the
digest function, the candidate and the options. -/
def HashesInput (maxBytes : Nat) (status : Int) (chunks : List (List UInt8))
    (input : List UInt8) : Prop :=
  ∃ state response,
    runEvents (deliver maxBytes) .initial (wholeResponse status chunks) = some state ∧
    state.handlers.promise = some response ∧
    ∀ (platform : Platform) (requestSkill : Fetcher) (candidate : Candidate)
      (options : FetchOptions) (trace : Trace),
      (options.requiresResolvedAddress = true → isFalsy options.address = false) →
      requestSkill trace candidate.url options = .ok response →
        ∃ attempt body,
          (fetchCandidate platform ⟨none, requestSkill⟩ candidate options trace).1 =
            .ok (attempt, some body) ∧
          attempt.hash = some (platform.sha256 input)

variable {status : Int} {chunks : List (List UInt8)}

/-- A body in the 2xx range that fits the limit is hashed as its decoding, encoded again. -/
theorem hashes_input (hstatus : 200 ≤ status ∧ status < 300)
    (hsize : chunks.flatten.length ≤ maxBytes) :
    HashesInput maxBytes status chunks (encode (decode chunks.flatten)) := by
  obtain ⟨state, hrun, hpromise⟩ := whole_response_resolves status hsize
  refine ⟨state, _, hrun, hpromise, ?_⟩
  intro platform requestSkill candidate options trace haddress hrequest
  have hguard : (options.requiresResolvedAddress && isFalsy options.address &&
      (none : Option Fetcher).isNone) = false := by
    cases hrequires : options.requiresResolvedAddress with
    | false => rfl
    | true => simp [haddress hrequires]
  rw [fetchCandidate, hguard, if_neg Bool.false_ne_true, Run.bind_ok (Run.attempt_apply _ _)]
  simp only [FetchPath.request, Run.call_apply, hrequest, attemptOfResponse, Option.getD_some]
  rw [if_pos hstatus]
  refine ⟨_, _, rfl, ?_⟩
  rw [sha256_input, hash_input_of_body]

/-- The bytes that are hashed are determined by the chunks. -/
theorem HashesInput.unique {input other : List UInt8}
    (h : HashesInput maxBytes status chunks input)
    (hother : HashesInput maxBytes status chunks other) : input = other := by
  obtain ⟨state, response, hrun, hpromise, hhash⟩ := h
  obtain ⟨state', response', hrun', hpromise', hhash'⟩ := hother
  obtain rfl := Option.some.inj (hrun.symm.trans hrun')
  obtain rfl := Option.some.inj (hpromise.symm.trans hpromise')
  -- A digest function that loses nothing tells the two inputs apart.
  let platform : Platform := ⟨.ascii, fun bytes => bytes.map UInt8.toUInt16⟩
  obtain ⟨attempt, body, hfetch, hvalue⟩ := hhash platform (fun _ _ _ => .ok response)
    ⟨[], []⟩ ⟨none, false, [], 0⟩ [] (by simp) rfl
  obtain ⟨attempt', body', hfetch', hvalue'⟩ := hhash' platform (fun _ _ _ => .ok response)
    ⟨[], []⟩ ⟨none, false, [], 0⟩ [] (by simp) rfl
  have hattempt : attempt = attempt' := by
    have := hfetch.symm.trans hfetch'
    simp only [Except.ok.injEq, Prod.mk.injEq] at this
    exact this.1
  rw [hattempt] at hvalue
  have hmaps := Option.some.inj (hvalue.symm.trans hvalue')
  refine List.map_injective_iff.mpr ?_ hmaps
  intro a b hab
  exact UInt8.toUInt16_inj.mp hab

/-- The hash of a body is over the delivered bytes exactly when they are well-formed UTF-8, and
different well-formed bodies are hashed differently. -/
theorem content_hash_input_iff {maxBytes : Nat} {status : Int} {chunks : List (List UInt8)}
    (hstatus : 200 ≤ status ∧ status < 300) (hsize : chunks.flatten.length ≤ maxBytes) :
    (∃ input, HashesInput maxBytes status chunks input) ∧
    (HashesInput maxBytes status chunks chunks.flatten ↔ IsUtf8 chunks.flatten) ∧
    ∀ otherStatus otherChunks input, 200 ≤ otherStatus ∧ otherStatus < 300 →
      otherChunks.flatten.length ≤ maxBytes →
      IsUtf8 chunks.flatten → IsUtf8 otherChunks.flatten →
      HashesInput maxBytes status chunks input →
      HashesInput maxBytes otherStatus otherChunks input →
        otherChunks.flatten = chunks.flatten := by
  have hinput := hashes_input hstatus hsize
  refine ⟨⟨_, hinput⟩, ?_, ?_⟩
  · rw [← encode_decode_iff]
    constructor
    · intro h
      exact hinput.unique h
    · intro h
      rw [h] at hinput
      exact hinput
  · intro otherStatus otherChunks input hotherStatus hotherSize hutf8 hotherUtf8 h hother
    have hsame := (hashes_input hotherStatus hotherSize).unique hother
    rw [encode_decode_iff.mpr hotherUtf8, ← hinput.unique h, encode_decode_iff.mpr hutf8] at hsame
    exact hsame

/-- A character in two chunks. -/
theorem content_hash_input_iff_example :
    HashesInput maxSkillBytes 200 [[0xC3], [0xA9]] [0xC3, 0xA9] := by
  have hutf8 : IsUtf8 [0xC3, 0xA9] :=
    .append (.two (by decide) (by decide) ⟨by decide, by decide⟩) .nil
  have h := @content_hash_input_iff maxSkillBytes 200 [[0xC3], [0xA9]] (by decide) (by decide)
  exact h.2.1.mpr hutf8

/-- Two bodies of one byte each, neither of them UTF-8: both are hashed as U+FFFD. -/
theorem content_hash_ill_formed :
    HashesInput maxSkillBytes 200 [[0xFF]] [0xEF, 0xBF, 0xBD] ∧
      HashesInput maxSkillBytes 200 [[0xFE]] [0xEF, 0xBF, 0xBD] ∧
      ¬ HashesInput maxSkillBytes 200 [[0xFF]] [0xFF] := by
  have hfirst := @hashes_input maxSkillBytes 200 [[0xFF]] (by decide) (by decide)
  have hsecond := @hashes_input maxSkillBytes 200 [[0xFE]] (by decide) (by decide)
  refine ⟨hfirst, hsecond, ?_⟩
  intro h
  exact absurd (hfirst.unique h) (by decide)

end AgentResolver
