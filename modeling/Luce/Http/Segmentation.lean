/-
This file decides when the request that the router is given does not depend on how its
bytes are divided into reads.

The parser sees the first read only. Of the body it takes what comes before the next
blank line, and it reads the parameters in that part; each later read is appended as a
C string, which ends at its first zero byte. The number of bytes that arrive is the
declared one, so whatever is lost on the way keeps the request from being complete.
-/

import Luce.Http.HttpServer

namespace Luce.Http

open StringUtil Library.Search

/-! ### What the parser makes of the first read -/

namespace HttpRequest

/-- The parameters of a text. -/
def params (text : Bytes) : StringMap := parseParams (fun _ => none) text

theorem parseLine_body (request : HttpRequest) (body line : Bytes) :
    { request with body }.parseLine line =
      (request.parseLine line).map fun request => { request with body } := by
  simp only [parseLine]
  cases element (split line (ascii " ") (by decide) true) 0 with
  | error => rfl
  | ok method =>
  cases element (split line (ascii " ") (by decide) true) 1 with
  | error => rfl
  | ok url =>
  cases element (split line (ascii " ") (by decide) true) 2 with
  | error => rfl
  | ok httpVersion =>
    simp only [bind, Except.bind, pure, Except.pure]
    split <;> rfl

/-- The request line has nothing to do with the parameters of the body. -/
theorem parseLine_bodyParams {request parsed : HttpRequest} {line : Bytes}
    (success : request.parseLine line = .ok parsed) : parsed.bodyParams = request.bodyParams := by
  unfold parseLine at success
  obtain ⟨method, -, success⟩ := bind_eq_ok.mp success
  obtain ⟨url, -, success⟩ := bind_eq_ok.mp success
  obtain ⟨httpVersion, -, success⟩ := bind_eq_ok.mp success
  dsimp only at success
  split at success <;> cases success <;> rfl

/-- The request line and the headers, on a fresh request. -/
def parseHead (head : Bytes) : Except Fault HttpRequest := do
  let lineAndHead := split head crlf crlf_ne_nil false
  let line ← element lineAndHead 0
  let request ← HttpRequest.new.parseLine line
  pure (request.parseHeaders lineAndHead)

/-- What is parsed once the text is cut at its blank lines. -/
theorem parse_of_split {data head body : Bytes} {more : List Bytes}
    (parts : split data blankLine blankLine_ne_nil true = head :: body :: more) :
    HttpRequest.new.parse data =
      (parseHead head).map fun request => { request with body }.parseBody body := by
  have taken : (if body.isEmpty then HttpRequest.new else { HttpRequest.new with body }) =
      { HttpRequest.new with body } := by
    split
    case isTrue empty =>
      rw [List.isEmpty_iff.mp empty]
      rfl
    case isFalse => rfl
  have second : element (head :: body :: more) 1 = .ok body := rfl
  have first : element (head :: body :: more) 0 = .ok head := rfl
  simp only [parse, parseHead, parts, first, second, bind, Except.bind, taken, parseLine_body]
  cases element (split head crlf crlf_ne_nil false) 0 with
  | error => rfl
  | ok line =>
    dsimp only
    cases HttpRequest.new.parseLine line <;> rfl

theorem parseHead_bodyParams {head : Bytes} {request : HttpRequest}
    (parsed : parseHead head = .ok request) : request.bodyParams = fun _ => none := by
  unfold parseHead at parsed
  obtain ⟨line, -, parsed⟩ := bind_eq_ok.mp parsed
  obtain ⟨fields, success, parsed⟩ := bind_eq_ok.mp parsed
  cases parsed
  exact parseLine_bodyParams success

end HttpRequest

/-! ### Requests and their divisions -/

/-- The number that the header block declares as the length of the body. -/
def declaredLength (head : Bytes) : Option Int :=
  match HttpRequest.parseHead head with
  | .error _ => none
  | .ok request => (request.headers (ascii "Content-Length")).bind readInteger

/-- A header block that ends at its first blank line, and a body of the length that it
declares. -/
structure Request where
  head : Bytes
  body : Bytes
  text : 0 ∉ head
  ends : find blankLine (head ++ blankLine) = some head.length
  declares : declaredLength head = some body.length

/-- The reads that a request is divided into: the first one has the header block, the
blank line and a part of the body. -/
structure Division (request : Request) where
  part : Bytes
  others : List Bytes
  whole : part ++ others.flatten = request.body
  nonempty : ∀ chunk ∈ others, chunk ≠ []

/-- What `AsyncRead` returns. -/
def Division.reads {request : Request} (division : Division request) : List Bytes :=
  (request.head ++ blankLine ++ division.part) :: division.others

/-- No read fills the buffer; the length is an `int`; the body has no zero byte, and the
first part of it no blank line; and that part has all parameters of the body. -/
structure Division.Harmless {request : Request} (division : Division request) : Prop where
  reads : ∀ chunk ∈ division.reads, chunk.length < maxRequestSize
  length : request.body.length < 2 ^ 31
  body : 0 ∉ request.body
  part : ¬ blankLine <:+: division.part
  params : HttpRequest.params division.part = HttpRequest.params request.body

/-! ### Reading the rest of a body -/

namespace Serving

/-- No more bytes are to come than the declared length has room for. The request is
passed on if it is filled, and nothing is lost on the way. -/
theorem receive_requests {contentLen : Int} {request result : HttpRequest} {others : List Bytes}
    (bounded : request.body.length + others.flatten.length ≤ sizeOf contentLen)
    (nonempty : ∀ chunk ∈ others, chunk ≠ []) :
    (others.foldl step (initial.receive request contentLen)).requests = [result] ↔
      request.body.length + others.flatten.length = sizeOf contentLen ∧
        (∀ chunk ∈ others, chunk.length < maxRequestSize ∧ 0 ∉ chunk) ∧
        result = { request with body := request.body ++ others.flatten } := by
  induction others generalizing request with
  | nil =>
    rw [List.foldl_nil, List.flatten_nil, List.append_nil, receive]
    split
    case isTrue complete =>
      have passed : (initial.serve request).requests = [result] ↔ result = request :=
        List.singleton_inj.trans eq_comm
      exact ⟨fun served => ⟨complete, nofun, passed.mp served⟩,
        fun served => passed.mpr served.2.2⟩
    case isFalse incomplete => exact ⟨nofun, fun complete => absurd complete.1 incomplete⟩
  | cons chunk others inductionHypothesis =>
    have longer := List.length_pos_of_ne_nil (nonempty chunk (List.mem_cons_self ..))
    have later : ∀ chunk ∈ others, chunk ≠ [] :=
      fun chunk member => nonempty chunk (List.mem_cons_of_mem _ member)
    have kept := length_cString_le chunk
    rw [List.flatten_cons, List.length_append] at bounded ⊢
    have incomplete : request.body.length ≠ sizeOf contentLen := by omega
    rw [List.foldl_cons, receive, if_neg incomplete, initial, step_receiving]
    split
    case isFalse full =>
      rw [foldl_failed rfl]
      exact ⟨nofun, fun ⟨_, small, _⟩ => absurd (small chunk (List.mem_cons_self ..)).1 full⟩
    case isTrue room =>
      have next := @inductionHypothesis
        { request with body := request.body ++ cString chunk }
        (by simp only [List.length_append]; omega) later
      rw [initial] at next
      rw [next]
      simp only [List.length_append, List.forall_mem_cons]
      constructor
      · rintro ⟨complete, small, same⟩
        have whole : (cString chunk).length = chunk.length := by omega
        have absent := length_cString_eq_iff.mp whole
        rw [cString_eq_iff.mpr absent, List.append_assoc] at same
        exact ⟨by omega, ⟨⟨room, absent⟩, small⟩, same⟩
      · rintro ⟨complete, ⟨⟨-, absent⟩, small⟩, same⟩
        rw [cString_eq_iff.mpr absent, List.append_assoc]
        exact ⟨by omega, small, same⟩

end Serving

/-! ### Delivery -/

/-- What the header block says. -/
theorem Request.fields (request : Request) : ∃ fields value,
    HttpRequest.parseHead request.head = .ok fields ∧
      fields.headers (ascii "Content-Length") = some value ∧
      readInteger value = some request.body.length := by
  have declares := request.declares
  unfold declaredLength at declares
  split at declares
  case h_1 => cases declares
  case h_2 fields parsed =>
    obtain ⟨value, present, length⟩ := Option.bind_eq_some_iff.mp declares
    exact ⟨fields, value, parsed, present, length⟩

theorem stoi_eq {value : Bytes} {length : Nat} (read : readInteger value = some (length : Int)) :
    stoi value = if length < 2 ^ 31 then .ok (length : Int) else .error .outOfRange := by
  rw [stoi, read]
  have range : (-2 ^ 31 ≤ (length : Int) ∧ (length : Int) < 2 ^ 31) ↔ length < 2 ^ 31 := by omega
  simp only [range]

theorem sizeOf_natCast {length : Nat} (small : length < 2 ^ 31) : sizeOf length = length := by
  unfold sizeOf
  omega

namespace Division

variable {request : Request} (division : Division request)

/-- What the parser finds of the body in the first read. -/
def found : Bytes := before blankLine (cString division.part)

theorem length_found_eq_iff :
    division.found.length = division.part.length ↔
      0 ∉ division.part ∧ ¬ blankLine <:+: division.part := by
  have first := length_before_le blankLine (cString division.part)
  have second := length_cString_le division.part
  rw [found]
  constructor
  · intro same
    have text : cString division.part = division.part :=
      cString_eq_iff.mpr (length_cString_eq_iff.mp (by omega))
    rw [text] at same
    exact ⟨cString_eq_iff.mp text, (length_before_eq_iff blankLine_ne_nil).mp same⟩
  · rintro ⟨nonzero, unbroken⟩
    rw [cString_eq_iff.mpr nonzero]
    exact (length_before_eq_iff blankLine_ne_nil).mpr unbroken

/-- Where nothing is cut off, everything is found. -/
theorem found_eq (same : division.found.length = division.part.length) :
    division.found = division.part := by
  obtain ⟨nonzero, unbroken⟩ := division.length_found_eq_iff.mp same
  rw [found, cString_eq_iff.mpr nonzero]
  exact (before_eq_iff blankLine_ne_nil).mpr unbroken

/-- The first read, by what the parser makes of it. -/
theorem step_first {fields : HttpRequest} {value : Bytes}
    (parsed : HttpRequest.parseHead request.head = .ok fields)
    (present : fields.headers (ascii "Content-Length") = some value)
    (length : readInteger value = some request.body.length) :
    Serving.step .initial (request.head ++ blankLine ++ division.part) =
      if (request.head ++ blankLine ++ division.part).length < maxRequestSize then
        if request.body.length < 2 ^ 31 then
          Serving.initial.receive
            { fields with body := division.found, bodyParams := HttpRequest.params division.found }
            request.body.length
        else Serving.initial.fail .outOfRange
      else Serving.initial.fail .bufferEnd := by
  have text : cString (request.head ++ blankLine ++ division.part) =
      request.head ++ blankLine ++ cString division.part := by
    rw [List.append_assoc, cString_append request.text, cString_append (by decide),
      List.append_assoc]
  obtain ⟨more, parts⟩ := split_append blankLine_ne_nil request.ends (cString division.part)
  have parse : HttpRequest.new.parse (request.head ++ blankLine ++ cString division.part) =
      .ok { fields with body := division.found
                        bodyParams := HttpRequest.params division.found } := by
    rw [HttpRequest.parse_of_split parts, parsed, HttpRequest.params,
      ← HttpRequest.parseHead_bodyParams parsed]
    rfl
  have some : request.head ++ blankLine ++ division.part ≠ [] := by simp [blankLine_ne_nil]
  rw [← text] at parse
  split
  case isTrue room =>
    split
    case isTrue small =>
      exact Serving.step_declared [] some room parse present ((stoi_eq length).trans (if_pos small))
    case isFalse large =>
      exact Serving.step_undeclared [] some room parse present
        ((stoi_eq length).trans (if_neg large))
  case isFalse full => exact Serving.step_full [] some full

/-- The only request that is passed on is the one that the header block and the body make
up, but for the parameters. -/
theorem requests_eq_iff {fields : HttpRequest} {value : Bytes} {result : HttpRequest}
    (parsed : HttpRequest.parseHead request.head = .ok fields)
    (present : fields.headers (ascii "Content-Length") = some value)
    (length : readInteger value = some request.body.length) :
    (onRequest division.reads).requests = [result] ↔
      (∀ chunk ∈ division.reads, chunk.length < maxRequestSize) ∧
        request.body.length < 2 ^ 31 ∧ 0 ∉ request.body ∧ ¬ blankLine <:+: division.part ∧
        result = { fields with
          body := request.body, bodyParams := HttpRequest.params division.part } := by
  have whole : division.part.length + division.others.flatten.length = request.body.length := by
    rw [← List.length_append, division.whole]
  have absent : 0 ∉ request.body ↔ 0 ∉ division.part ∧ ∀ chunk ∈ division.others, 0 ∉ chunk := by
    rw [← division.whole]
    simp [not_or]
  rw [onRequest, reads, List.foldl_cons, division.step_first parsed present length,
    List.forall_mem_cons]
  split
  case isFalse full =>
    rw [Serving.foldl_failed rfl]
    exact ⟨nofun, fun ⟨⟨room, _⟩, _⟩ => absurd room full⟩
  case isTrue room =>
  split
  case isFalse large =>
    rw [Serving.foldl_failed rfl]
    exact ⟨nofun, fun ⟨_, small, _⟩ => absurd small large⟩
  case isTrue small =>
    have shorter : division.found.length ≤ division.part.length :=
      (length_before_le _ _).trans (length_cString_le _)
    have bounded : division.found.length + division.others.flatten.length ≤
        sizeOf request.body.length := by
      rw [sizeOf_natCast small]
      omega
    rw [Serving.receive_requests bounded division.nonempty, sizeOf_natCast small]
    dsimp only
    constructor
    · rintro ⟨complete, arrived, same⟩
      have lossless : division.found.length = division.part.length := by omega
      obtain ⟨nonzero, unbroken⟩ := division.length_found_eq_iff.mp lossless
      rw [division.found_eq lossless, division.whole] at same
      exact ⟨⟨room, fun chunk member => (arrived chunk member).1⟩, small,
        absent.mpr ⟨nonzero, fun chunk member => (arrived chunk member).2⟩, unbroken, same⟩
    · rintro ⟨⟨-, fits⟩, -, nonzero, unbroken, same⟩
      obtain ⟨first, others⟩ := absent.mp nonzero
      have lossless := division.length_found_eq_iff.mpr ⟨first, unbroken⟩
      rw [division.found_eq lossless, division.whole]
      exact ⟨whole, fun chunk member => ⟨fits chunk member, others chunk member⟩, same⟩

end Division

/-- Two divisions of a request have the router given one and the same request, with its
body and the parameters of its body, exactly if both are harmless. -/
theorem delivery_iff (request : Request) (first second : Division request) :
    (∃ result, (onRequest first.reads).requests = [result] ∧
        (onRequest second.reads).requests = [result] ∧ result.body = request.body ∧
        result.bodyParams = HttpRequest.params request.body) ↔
      first.Harmless ∧ second.Harmless := by
  obtain ⟨fields, value, parsed, present, length⟩ := request.fields
  simp only [first.requests_eq_iff parsed present length,
    second.requests_eq_iff parsed present length]
  constructor
  · rintro ⟨result, ⟨fits, small, nonzero, unbroken, rfl⟩, ⟨fits', -, -, unbroken', same⟩, -,
      params⟩
    exact ⟨⟨fits, small, nonzero, unbroken, params⟩, ⟨fits', small, nonzero, unbroken',
      (congrArg HttpRequest.bodyParams same).symm.trans params⟩⟩
  · rintro ⟨⟨fits, small, nonzero, unbroken, params⟩, ⟨fits', -, -, unbroken', params'⟩⟩
    refine ⟨{ fields with body := request.body, bodyParams := HttpRequest.params request.body },
      ?_, ?_, rfl, rfl⟩
    · exact ⟨fits, small, nonzero, unbroken, by rw [params]⟩
    · exact ⟨fits', small, nonzero, unbroken', by rw [params']⟩

/-- A form with one parameter. -/
def form : Request where
  head := ascii "POST /login/ HTTP/1.1\r\nContent-Length: 3"
  body := ascii "k=v"
  text := by decide
  ends := by decide
  declares := by decide

/-- The form in one read. -/
def form.whole : Division form := ⟨ascii "k=v", [], by decide, nofun⟩

/-- The form with its value in a second read. -/
def form.divided : Division form := ⟨ascii "k=", [ascii "v"], by decide, by decide⟩

/-- The router finds the value of the form's parameter only in the first case. -/
theorem delivery_divided :
    ¬ ∃ result, (onRequest form.whole.reads).requests = [result] ∧
        (onRequest form.divided.reads).requests = [result] ∧ result.body = form.body ∧
        result.bodyParams = HttpRequest.params form.body := by
  rintro ⟨result, whole, divided, -, -⟩
  have first : (onRequest form.whole.reads).requests.map (·.bodyParams (ascii "k")) =
      [some (ascii "v")] := by decide
  have second : (onRequest form.divided.reads).requests.map (·.bodyParams (ascii "k")) =
      [some []] := by decide
  rw [whole] at first
  rw [divided] at second
  exact absurd (first.symm.trans second) (by decide)

end Luce.Http
