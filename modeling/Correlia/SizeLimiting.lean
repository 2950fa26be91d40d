import Correlia.Middleware.SizeLimit

/-!
# SizeLimiting — what reaches the application, and how large it is

Whatever the chunking and the header: the application is called once, with the whole body, when the
body is within the limit, and the buffer never holds more than the limit (`size_limiting`).
-/

namespace Correlia

open Lib

namespace RequestSizeLimiterMiddleware

/-! ### Messages -/

/-- The chunk of a message. -/
def Message.chunk : Message → List UInt8
  | .request body _ => body.getD []
  | .other _ => []

/-- A request message that another one follows. -/
def Message.Open : Message → Prop
  | .request _ moreBody => moreBody.getD false = true
  | .other _ => False

/-- The last request message of a body. -/
def Message.Last : Message → Prop
  | .request _ moreBody => moreBody.getD false = false
  | .other _ => False

def Message.IsRequest (message : Message) : Prop := message.Open ∨ message.Last

/-- The bytes of these messages, in order. -/
def bytesOf (messages : List Message) : List UInt8 := messages.flatMap Message.chunk

/-- The body arrives whole: request messages up to the first without `more_body`. -/
def Arrives (messages : List Message) (body : List UInt8) : Prop :=
  ∃ before last after, messages = before ++ last :: after ∧ (∀ m ∈ before, m.Open) ∧ last.Last ∧
    body = bytesOf (before ++ [last])

/-- The chunks outgrow the limit before the body ends. -/
def Outgrows (limit : ℤ) (messages : List Message) : Prop :=
  ∃ before message after, messages = before ++ message :: after ∧ (∀ m ∈ before, m.Open) ∧
    message.IsRequest ∧ limit < (bytesOf (before ++ [message])).length

/-- A content length that is read as a number is within the limit. -/
def ClaimsWithin (parseInt : String → Option ℤ) (limit : ℤ) (contentLength : Option String) : Prop :=
  ∀ text n, contentLength = some text → parseInt text = some n → n ≤ limit

/-- The first messages of a replay. -/
def replays (body : List UInt8) : ℕ → Bool → List Message
  | 0, _ => []
  | n + 1, replayed =>
    (replayReceive body replayed).1 :: replays body n (replayReceive body replayed).2

/-- The buffer holds these bytes, and not more than the limit. -/
structure Buffer.Holds (limit : ℤ) (b : Buffer) (bytes : List UInt8) : Prop where
  body : b.body = bytes
  total : b.total = bytes.length
  within : (bytes.length : ℤ) ≤ limit

theorem bytesOf_single (m : Message) : bytesOf ([] ++ [m]) = m.chunk := by simp [bytesOf]

theorem append_bytesOf_cons (bytes : List UInt8) (m : Message) (messages : List Message) :
    bytes ++ bytesOf (m :: messages) = bytes ++ m.chunk ++ bytesOf messages := by
  rw [bytesOf, List.flatMap_cons, List.append_assoc]
  rfl

section

variable {limit : ℤ} {b b' : Buffer} {message : Message} {messages : List Message}
  {bytes : List UInt8}

/-- A request message that fits is buffered; one that does not ends the loop. -/
theorem receiveTurn_fits (hb : b.Holds limit bytes)
    (hfits : ((bytes ++ message.chunk).length : ℤ) ≤ limit) :
    ∃ b' : Buffer, b'.Holds limit (bytes ++ message.chunk) ∧
      (message.Open → receiveTurn limit b message = .reading b') ∧
      (message.Last → receiveTurn limit b message = .complete b') := by
  refine ⟨⟨b.body ++ message.chunk, b.total + message.chunk.length⟩, ⟨?_, ?_, hfits⟩, ?_, ?_⟩
  · rw [hb.body]
  · rw [hb.total, List.length_append]
  all_goals
    cases message with
    | other type => exact False.elim
    | request body moreBody =>
      intro hm
      have hroom : ¬ limit < ((b.total + (body.getD []).length : ℕ) : ℤ) := by
        rw [List.length_append] at hfits
        rw [hb.total]
        exact not_lt.mpr hfits
      have hmore : moreBody.getD false = _ := hm
      unfold receiveTurn
      dsimp only
      rw [if_neg hroom, hmore]
      rfl

theorem receiveTurn_outgrows (hb : b.Holds limit bytes) (hm : message.IsRequest)
    (hlong : limit < ((bytes ++ message.chunk).length : ℤ)) :
    ∃ total, receiveTurn limit b message = .tooLarge total := by
  cases message with
  | other type => exact hm.elim False.elim False.elim
  | request body moreBody =>
    refine ⟨b.total + (body.getD []).length, if_pos ?_⟩
    rw [List.length_append] at hlong
    rw [hb.total]
    exact hlong

/-- A message is an open or a last request, or no request. -/
theorem message_cases (message : Message) :
    message.Open ∨ message.Last ∨ ∃ type, message = .other type := by
  cases message with
  | other type => exact Or.inr (Or.inr ⟨type, rfl⟩)
  | request body moreBody =>
    cases h : moreBody.getD false
    · exact Or.inr (Or.inl h)
    · exact Or.inl h

/-! ### The loop -/

/-- A body that arrives within the limit completes the loop. -/
theorem readBody_arrives {before after : List Message} {last : Message}
    (hb : b.Holds limit bytes) (hopen : ∀ m ∈ before, m.Open) (hlast : last.Last)
    (hfits : ((bytes ++ bytesOf (before ++ [last])).length : ℤ) ≤ limit) :
    ∃ b' : Buffer, readBody limit b (before ++ last :: after) = .complete b' ∧
      b'.Holds limit (bytes ++ bytesOf (before ++ [last])) := by
  induction before generalizing b bytes with
  | nil =>
    rw [bytesOf_single] at hfits ⊢
    obtain ⟨b', hb', -, hcomplete⟩ := receiveTurn_fits hb hfits
    refine ⟨b', ?_, hb'⟩
    rw [List.nil_append, readBody, hcomplete hlast]
  | cons m before ih =>
    rw [List.cons_append, append_bytesOf_cons] at hfits
    rw [List.cons_append, List.cons_append, append_bytesOf_cons]
    have hchunk : ((bytes ++ m.chunk).length : ℤ) ≤ limit := by
      rw [List.length_append] at hfits
      omega
    obtain ⟨b'', hb'', hreading, -⟩ := receiveTurn_fits hb hchunk
    rw [readBody, hreading (hopen m List.mem_cons_self)]
    exact ih hb'' (fun m hm => hopen m (List.mem_cons_of_mem _ hm)) hfits

theorem readBody_outgrows {before after : List Message} {m : Message}
    (hb : b.Holds limit bytes) (hopen : ∀ m ∈ before, m.Open) (hm : m.IsRequest)
    (hlong : limit < ((bytes ++ bytesOf (before ++ [m])).length : ℤ)) :
    ∃ total, readBody limit b (before ++ m :: after) = .tooLarge total := by
  induction before generalizing b bytes with
  | nil =>
    rw [bytesOf_single] at hlong
    obtain ⟨total, hturn⟩ := receiveTurn_outgrows hb hm hlong
    exact ⟨total, by rw [List.nil_append, readBody, hturn]⟩
  | cons first before ih =>
    have hfirst := hopen first List.mem_cons_self
    rw [List.cons_append, append_bytesOf_cons] at hlong
    rw [List.cons_append, readBody]
    by_cases hchunk : ((bytes ++ first.chunk).length : ℤ) ≤ limit
    · obtain ⟨b'', hb'', hreading, -⟩ := receiveTurn_fits hb hchunk
      rw [hreading hfirst]
      exact ih hb'' (fun m hm => hopen m (List.mem_cons_of_mem _ hm)) hlong
    · obtain ⟨total, hturn⟩ := receiveTurn_outgrows hb (Or.inl hfirst) (not_le.mp hchunk)
      exact ⟨total, by rw [hturn]⟩

/-- How the loop ends, and on which messages. -/
theorem readBody_cases (hb : b.Holds limit bytes) (messages : List Message) :
    (∃ b' : Buffer, readBody limit b messages = .reading b' ∧
        b'.Holds limit (bytes ++ bytesOf messages)) ∨
      (∃ before last after, messages = before ++ last :: after ∧ (∀ m ∈ before, m.Open) ∧
        last.Last ∧ ∃ b' : Buffer, readBody limit b messages = .complete b' ∧
          b'.Holds limit (bytes ++ bytesOf (before ++ [last]))) ∨
      (∃ total before m after, readBody limit b messages = .tooLarge total ∧
        messages = before ++ m :: after ∧ (∀ m ∈ before, m.Open) ∧ m.IsRequest ∧
        limit < ((bytes ++ bytesOf (before ++ [m])).length : ℤ)) ∨
      readBody limit b messages = .gone := by
  induction messages generalizing b bytes with
  | nil => exact Or.inl ⟨b, rfl, by simpa [bytesOf] using hb⟩
  | cons m rest ih =>
    rw [readBody]
    rcases message_cases m with hopen | hlast | ⟨type, rfl⟩
    · by_cases hchunk : ((bytes ++ m.chunk).length : ℤ) ≤ limit
      · obtain ⟨b'', hb'', hreading, -⟩ := receiveTurn_fits hb hchunk
        rw [hreading hopen]
        have hall : ∀ {before : List Message}, (∀ m' ∈ before, m'.Open) →
            ∀ m' ∈ m :: before, m'.Open := fun h => List.forall_mem_cons.mpr ⟨hopen, h⟩
        have hbytes : ∀ tail, bytes ++ m.chunk ++ bytesOf tail = bytes ++ bytesOf (m :: tail) :=
          fun tail => (append_bytesOf_cons bytes m tail).symm
        rcases ih hb'' with ⟨b', hread, hb'⟩ | ⟨before, last, after, rfl, hbefore, hlast, b', hread, hb'⟩ |
          ⟨total, before, m', after, hread, rfl, hbefore, hm', hlong⟩ | hgone
        · exact Or.inl ⟨b', hread, hbytes rest ▸ hb'⟩
        · refine Or.inr (Or.inl ⟨m :: before, last, after, rfl, hall hbefore, hlast, b', hread, ?_⟩)
          exact hbytes (before ++ [last]) ▸ hb'
        · refine Or.inr (Or.inr (Or.inl ⟨total, m :: before, m', after, hread, rfl, hall hbefore, hm',
            ?_⟩))
          exact hbytes (before ++ [m']) ▸ hlong
        · exact Or.inr (Or.inr (Or.inr hgone))
      · obtain ⟨total, hturn⟩ := receiveTurn_outgrows hb (Or.inl hopen) (not_le.mp hchunk)
        refine Or.inr (Or.inr (Or.inl ⟨total, [], m, rest, by rw [hturn], rfl, nofun, Or.inl hopen, ?_⟩))
        rw [bytesOf_single]
        exact not_le.mp hchunk
    · by_cases hchunk : ((bytes ++ m.chunk).length : ℤ) ≤ limit
      · obtain ⟨b'', hb'', -, hcomplete⟩ := receiveTurn_fits hb hchunk
        rw [hcomplete hlast]
        exact Or.inr (Or.inl ⟨[], m, rest, rfl, nofun, hlast, b'', rfl, by rw [bytesOf_single]; exact hb''⟩)
      · obtain ⟨total, hturn⟩ := receiveTurn_outgrows hb (Or.inr hlast) (not_le.mp hchunk)
        refine Or.inr (Or.inr (Or.inl ⟨total, [], m, rest, by rw [hturn], rfl, nofun, Or.inr hlast, ?_⟩))
        rw [bytesOf_single]
        exact not_le.mp hchunk
    · exact Or.inr (Or.inr (Or.inr rfl))

end

theorem claimsMore_eq_false {parseInt : String → Option ℤ} {limit : ℤ} (hlimit : 0 ≤ limit)
    {contentLength : Option String} :
    claimsMore parseInt limit contentLength = false ↔
      ClaimsWithin parseInt limit contentLength := by
  cases contentLength with
  | none => exact iff_of_true rfl nofun
  | some text =>
    rw [claimsMore, decide_eq_false_iff_not, not_lt]
    constructor
    · rintro h text' n ⟨⟩ hparse
      rwa [hparse] at h
    · intro h
      cases hparse : parseInt text with
      | none => exact hlimit
      | some n => exact h text n rfl hparse

/-- The first message of a replay has the body, and every later one is an empty end. -/
theorem replays_eq (body : List UInt8) (n : ℕ) :
    replays body (n + 1) false =
      .request (some body) (some false) :: List.replicate n (.request (some []) (some false)) := by
  have hlater : ∀ n, replays body n true = List.replicate n (.request (some []) (some false)) := by
    intro n
    induction n with
    | zero => rfl
    | succ n ih =>
      rw [replays, List.replicate_succ, ← ih]
      rfl
  rw [replays, ← hlater]
  rfl

/-! ### The call -/

/-- Nothing is buffered yet. -/
theorem emptyBuffer_holds {limit : ℤ} (hlimit : 0 ≤ limit) : Buffer.Holds limit {} [] :=
  ⟨rfl, rfl, hlimit⟩

theorem readBody_of_arrives {limit : ℤ} (hlimit : 0 ≤ limit) {messages : List Message}
    {body : List UInt8} (h : Arrives messages body) (hfits : (body.length : ℤ) ≤ limit) :
    ∃ b, readBody limit {} messages = .complete b ∧ b.body = body := by
  obtain ⟨before, last, after, rfl, hopen, hlast, rfl⟩ := h
  obtain ⟨b, hread, hb⟩ := readBody_arrives (emptyBuffer_holds hlimit) hopen hlast hfits
  exact ⟨b, hread, hb.body⟩

theorem readBody_of_outgrows {limit : ℤ} (hlimit : 0 ≤ limit) {messages : List Message}
    (h : Outgrows limit messages) : ∃ total, readBody limit {} messages = .tooLarge total := by
  obtain ⟨before, message, after, rfl, hopen, hrequest, hlong⟩ := h
  exact readBody_outgrows (emptyBuffer_holds hlimit) hopen hrequest hlong

/-- The ways the loop can end, told by the messages. -/
inductive Ending (limit : ℤ) (messages : List Message) : Turn → Prop
  | waiting {b : Buffer} : Ending limit messages (.reading b)
  | complete {b : Buffer} (arrives : Arrives messages b.body) (fits : (b.body.length : ℤ) ≤ limit) :
      Ending limit messages (.complete b)
  | tooLarge {total : ℕ} (outgrows : Outgrows limit messages) : Ending limit messages (.tooLarge total)
  | gone : Ending limit messages .gone

theorem readBody_ending {limit : ℤ} (hlimit : 0 ≤ limit) (messages : List Message) :
    Ending limit messages (readBody limit {} messages) := by
  rcases readBody_cases (emptyBuffer_holds hlimit) messages with ⟨b, hread, -⟩ |
    ⟨before, last, after, hsplit, hopen, hlast, b, hread, hb⟩ |
    ⟨total, before, m, after, hread, hsplit, hopen, hm, hlong⟩ | hread
  · rw [hread]
    exact .waiting
  · rw [hread]
    have hbody : b.body = bytesOf (before ++ [last]) := hb.body
    exact .complete ⟨before, last, after, hsplit, hopen, hlast, hbody⟩ (by rw [hbody]; exact hb.within)
  · rw [hread]
    exact .tooLarge ⟨before, m, after, hsplit, hopen, hm, hlong⟩
  · rw [hread]
    exact .gone

/-- After any messages the buffer is within the limit. -/
theorem buffer_within {limit : ℤ} (hlimit : 0 ≤ limit) {messages : List Message} {b : Buffer}
    (h : readBody limit {} messages = .reading b ∨ readBody limit {} messages = .complete b) :
    (b.body.length : ℤ) ≤ limit := by
  rcases readBody_cases (emptyBuffer_holds hlimit) messages with ⟨b', hread, hb⟩ |
    ⟨_, _, _, -, -, -, b', hread, hb⟩ | ⟨_, _, _, _, hread, -⟩ | hread
  · rw [hread] at h
    obtain rfl : b' = b := by simpa using h
    rw [hb.body]
    exact hb.within
  · rw [hread] at h
    obtain rfl : b' = b := by simpa using h
    rw [hb.body]
    exact hb.within
  · rw [hread] at h
    rcases h with h | h <;> cases h
  · rw [hread] at h
    rcases h with h | h <;> cases h

/-- A call for an HTTP request with a limit. -/
theorem call_eq (m : RequestSizeLimiterMiddleware) (parseInt : String → Option ℤ) {scope : Scope}
    (messages : List Message) {limit : ℤ} (hhttp : scope.type = "http")
    (hclass : m.limitFor (classifyPath scope.path) = limit) (hlimit : 1 ≤ limit) :
    m.call parseInt scope messages =
      if claimsMore parseInt limit scope.contentLength then { sent := send413 }
      else (readBody limit {} messages).handled := by
  have hpositive : ¬ limit ≤ 0 := by omega
  simp only [call, hclass, hhttp, hpositive, ne_eq, not_true, if_false]

/-- **Size limiting.**  For every limit, header and sequence of messages: the application is called
if and only if a content length that can be read is within the limit and the body arrives whole
within it; then once, with the body, and nothing is sent.  A 413 is sent, once and without a call,
exactly when the content length or the chunks exceed the limit.  The buffer stays within it. -/
theorem size_limiting (m : RequestSizeLimiterMiddleware) (parseInt : String → Option ℤ)
    (scope : Scope) (messages : List Message) (limit : ℤ) (hhttp : scope.type = "http")
    (hclass : m.limitFor (classifyPath scope.path) = limit) (hlimit : 1 ≤ limit) :
    let r := m.call parseInt scope messages
    (r.calls ≠ [] ↔ ClaimsWithin parseInt limit scope.contentLength ∧
        ∃ body, Arrives messages body ∧ (body.length : ℤ) ≤ limit) ∧
      (ClaimsWithin parseInt limit scope.contentLength → ∀ body, Arrives messages body →
        (body.length : ℤ) ≤ limit → r = { calls := [.replayed body] }) ∧
      (r.sent ≠ [] ↔ ¬ ClaimsWithin parseInt limit scope.contentLength ∨ Outgrows limit messages) ∧
      (r.sent ≠ [] → r = { sent := send413 }) ∧
      (∀ before after, messages = before ++ after → ∀ b, readBody limit {} before = .reading b ∨
        readBody limit {} before = .complete b → (b.body.length : ℤ) ≤ limit) ∧
      ∀ body n, replays body (n + 1) false =
        .request (some body) (some false) :: List.replicate n (.request (some []) (some false)) := by
  intro r
  have hnonneg : 0 ≤ limit := by omega
  have hcall : r = _ := call_eq m parseInt messages hhttp hclass hlimit
  have hbuffer : ∀ before after, messages = before ++ after → ∀ b,
      readBody limit {} before = .reading b ∨ readBody limit {} before = .complete b →
        (b.body.length : ℤ) ≤ limit := fun before after _ b h => buffer_within hnonneg h
  have harrives : ∀ body, Arrives messages body → (body.length : ℤ) ≤ limit →
      ∃ b, readBody limit {} messages = .complete b ∧ b.body = body := fun body h hfits =>
    readBody_of_arrives hnonneg h hfits
  -- the loop has one ending, so an ending excludes what leads to another
  have hnotarrived : (∀ b, readBody limit {} messages ≠ .complete b) → ∀ body,
      Arrives messages body → ¬ (body.length : ℤ) ≤ limit := by
    intro hne body h hfits
    obtain ⟨b, hcomplete, -⟩ := harrives body h hfits
    exact hne b hcomplete
  have hnotoutgrown : (∀ total, readBody limit {} messages ≠ .tooLarge total) →
      ¬ Outgrows limit messages := by
    intro hne h
    obtain ⟨total, htoo⟩ := readBody_of_outgrows hnonneg h
    exact hne total htoo
  rw [hcall]
  by_cases hclaims : ClaimsWithin parseInt limit scope.contentLength
  · rw [(claimsMore_eq_false hnonneg).mpr hclaims]
    have hending := readBody_ending hnonneg messages
    simp only [Bool.false_eq_true, if_false]
    cases hread : readBody limit {} messages with
    | reading b =>
      have hno := hnotarrived (by rw [hread]; nofun)
      have hout := hnotoutgrown (by rw [hread]; nofun)
      refine ⟨iff_of_false (fun h => h rfl) ?_, ?_, iff_of_false (fun h => h rfl) ?_,
        fun h => absurd rfl h, hbuffer, replays_eq⟩
      · rintro ⟨-, body, h, hfits⟩
        exact hno body h hfits
      · exact fun _ body h hfits => absurd hfits (hno body h)
      · exact fun h => h.elim (fun h => h hclaims) hout
    | complete b =>
      have hout := hnotoutgrown (by rw [hread]; nofun)
      rw [hread] at hending
      obtain ⟨harrived, hfits⟩ : Arrives messages b.body ∧ (b.body.length : ℤ) ≤ limit := by
        cases hending with
        | complete arrives fits => exact ⟨arrives, fits⟩
      refine ⟨iff_of_true (List.cons_ne_nil _ _) ⟨hclaims, b.body, harrived, hfits⟩, ?_,
        iff_of_false (fun h => h rfl) ?_, fun h => absurd rfl h, hbuffer, replays_eq⟩
      · intro _ body h hfits'
        obtain ⟨b', hcomplete, rfl⟩ := harrives body h hfits'
        obtain rfl : b = b' := Turn.complete.inj (hread.symm.trans hcomplete)
        rfl
      · exact fun h => h.elim (fun h => h hclaims) hout
    | tooLarge total =>
      have hno := hnotarrived (by rw [hread]; nofun)
      rw [hread] at hending
      have hout : Outgrows limit messages := by
        cases hending with
        | tooLarge outgrows => exact outgrows
      refine ⟨iff_of_false (fun h => h rfl) ?_, ?_, iff_of_true (List.cons_ne_nil _ _) (Or.inr hout),
        fun _ => rfl, hbuffer, replays_eq⟩
      · rintro ⟨-, body, h, hfits⟩
        exact hno body h hfits
      · exact fun _ body h hfits => absurd hfits (hno body h)
    | gone =>
      have hno := hnotarrived (by rw [hread]; nofun)
      have hout := hnotoutgrown (by rw [hread]; nofun)
      refine ⟨iff_of_false (fun h => h rfl) ?_, ?_, iff_of_false (fun h => h rfl) ?_,
        fun h => absurd rfl h, hbuffer, replays_eq⟩
      · rintro ⟨-, body, h, hfits⟩
        exact hno body h hfits
      · exact fun _ body h hfits => absurd hfits (hno body h)
      · exact fun h => h.elim (fun h => h hclaims) hout
  · have hmore : claimsMore parseInt limit scope.contentLength = true := by
      rw [← Bool.not_eq_false, claimsMore_eq_false hnonneg]
      exact hclaims
    rw [hmore, if_pos rfl]
    refine ⟨?_, fun h => absurd h hclaims, ?_, fun _ => rfl, hbuffer, replays_eq⟩
    · exact iff_of_false (fun h => h rfl) fun h => hclaims h.1
    · exact iff_of_true (by decide) (Or.inl hclaims)

/-- Three bytes in two chunks, and a header that says so. -/
theorem size_limiting_sample :
    (init 4 []).call (fun text => if text = "3" then some 3 else none)
        ⟨"http", "/v1/icinga2/events", some "3"⟩
        [.request (some [1, 2]) (some true), .request (some [3]) none] =
      { calls := [.replayed [1, 2, 3]] } := by
  have hlimit : (init 4 []).limitFor (classifyPath "/v1/icinga2/events") = 4 := rfl
  refine (size_limiting (init 4 []) (fun text => if text = "3" then some 3 else none)
    ⟨"http", "/v1/icinga2/events", some "3"⟩
    [.request (some [1, 2]) (some true), .request (some [3]) none] 4 rfl hlimit
    (by decide)).2.1 ?_ [1, 2, 3] ?_ (by decide)
  · rintro text n ⟨⟩ hparse
    obtain rfl : 3 = n := Option.some.inj hparse
    decide
  · refine ⟨[.request (some [1, 2]) (some true)], .request (some [3]) none, [], rfl, ?_, rfl, rfl⟩
    exact List.forall_mem_singleton.mpr rfl

end RequestSizeLimiterMiddleware

end Correlia
