/-
This file models the router, and decides when it runs the handler that a request asks
for.

A handler is registered under the method and the URL joined by a dash, and looked up
under the method and the URL of the request, joined in the same way. Both may contain
dashes themselves, so different pairs may have the same key. As long as no method has
a dash, the first dash of the key is the one that joins.
-/

import Luce.Http.HttpResponse

namespace Luce.Http

open StringUtil

/-! ### Registering and dispatching -/

variable {Handler : Type}

/-- The handlers by their keys, in a `std::unordered_map`. -/
structure Router (Handler : Type) where
  handlers : Bytes → Option Handler

/-- The key that a method and a URL are joined to. -/
def key (method url : Bytes) : Bytes := join [method, url] (ascii "-")

/-- What `Router::Handle` does: it invokes a handler with the context, or it composes a
response in the context. -/
inductive Handled (Handler : Type) where
  | invoked (handler : Handler) (context : HttpContext)
  | responded (context : HttpContext)

namespace Router

def new : Router Handler := ⟨fun _ => none⟩

def addRouter (router : Router Handler) (method url : Bytes) (handler : Handler) :
    Router Handler :=
  if method = ascii "DELETE" then router
  else if !endsWith url (ascii "/") then router
  else ⟨Function.update router.handlers (key method url) (some handler)⟩

/-- The text of the response to a request without a handler. -/
def notFound (method path : Bytes) : Bytes :=
  ascii "404 Not Found: " ++ method ++ ascii " not at " ++ path ++ ascii "\n"

def handle (iteration : Iteration) (router : Router Handler) (context : HttpContext) :
    Handled Handler :=
  match router.handlers (key context.method context.path) with
  | some handler => .invoked handler context
  | none =>
    .responded (context.html iteration 404 (notFound context.method context.path))

end Router

/-- A call that registers a handler. -/
inductive Registration (Handler : Type) where
  | GET (url : Bytes) (handler : Handler)
  | POST (url : Bytes) (handler : Handler)
  | PUT (url : Bytes) (handler : Handler)
  | DELETE (url : Bytes) (handler : Handler)
  | addRouter (method url : Bytes) (handler : Handler)

namespace Registration

def method : Registration Handler → Bytes
  | .GET _ _ => ascii "GET"
  | .POST _ _ => ascii "POST"
  | .PUT _ _ => ascii "PUT"
  | .DELETE _ _ => ascii "DELETE"
  | .addRouter method _ _ => method

def url : Registration Handler → Bytes
  | .GET url _ | .POST url _ | .PUT url _ | .DELETE url _ | .addRouter _ url _ => url

def handler : Registration Handler → Handler
  | .GET _ handler | .POST _ handler | .PUT _ handler | .DELETE _ handler
  | .addRouter _ _ handler => handler

/-- The registration is not refused. -/
def valid (registration : Registration Handler) : Bool :=
  registration.method ≠ ascii "DELETE" && endsWith registration.url (ascii "/")

end Registration

/-- The router behind these registrations. -/
def routed (registrations : List (Registration Handler)) : Router Handler :=
  registrations.foldl
    (fun router registration =>
      router.addRouter registration.method registration.url registration.handler) .new

/-! ### What a request asks for -/

/-- The last of the registrations that are not refused and meet the condition. -/
def lastSuch (registrations : List (Registration Handler))
    (condition : Registration Handler → Bool) : Option (Registration Handler) :=
  registrations.reverse.find? fun registration => registration.valid && condition registration

/-- The handler registered last for this very method and URL. -/
def asked (registrations : List (Registration Handler)) (method url : Bytes) : Option Handler :=
  (lastSuch registrations fun registration =>
    registration.method = method && registration.url = url).map Registration.handler

/-- The handler registered last for the pair is invoked, or, where there is none, the
response says so. -/
def Exact (iteration : Iteration) (registrations : List (Registration Handler))
    (context : HttpContext) : Prop :=
  (routed registrations).handle iteration context =
    match asked registrations context.method context.path with
    | some handler => .invoked handler context
    | none => .responded (context.html iteration 404
        (Router.notFound context.method context.path))

/-- The last registration under the key of the request is for this very pair, or for the
same handler as the last one for the pair. -/
def Unmistaken (registrations : List (Registration Handler)) (method url : Bytes) : Prop :=
  ∀ registration, (lastSuch registrations fun registration =>
      key registration.method registration.url = key method url) = some registration →
    registration.method = method ∧ registration.url = url ∨
      asked registrations method url = some registration.handler

/-! ### Lookup -/

theorem lastSuch_concat (registrations : List (Registration Handler))
    (last : Registration Handler) (condition : Registration Handler → Bool) :
    lastSuch (registrations ++ [last]) condition =
      if last.valid && condition last then some last else lastSuch registrations condition := by
  rw [lastSuch, List.reverse_concat, List.find?_cons, lastSuch]
  cases last.valid && condition last <;> rfl

/-- A registration that is not refused assigns its key. -/
theorem handlers_addRouter (router : Router Handler) (registration : Registration Handler) :
    (router.addRouter registration.method registration.url registration.handler).handlers =
      if registration.valid then
        Function.update router.handlers (key registration.method registration.url)
          (some registration.handler)
      else router.handlers := by
  unfold Router.addRouter Registration.valid
  by_cases delete : registration.method = ascii "DELETE"
  · simp [delete]
  · cases ends : endsWith registration.url (ascii "/") <;> simp [delete]

theorem routed_concat (registrations : List (Registration Handler))
    (last : Registration Handler) :
    routed (registrations ++ [last]) =
      (routed registrations).addRouter last.method last.url last.handler :=
  List.foldl_concat ..

/-- The router has the handler registered last under a key. -/
theorem handlers_routed (registrations : List (Registration Handler)) (method url : Bytes) :
    (routed registrations).handlers (key method url) =
      (lastSuch registrations fun registration =>
        key registration.method registration.url = key method url).map Registration.handler := by
  induction registrations using List.reverseRecOn with
  | nil => rfl
  | append_singleton registrations last inductionHypothesis =>
    rw [routed_concat, handlers_addRouter, lastSuch_concat]
    cases last.valid with
    | false => exact inductionHypothesis
    | true =>
      by_cases same : key last.method last.url = key method url
      · simp [same]
      · simp only [if_true, Bool.true_and, decide_eq_true_eq, if_neg same]
        rw [Function.update_of_ne (Ne.symm same)]
        exact inductionHypothesis

/-- A registration for the pair is one under its key. -/
theorem asked_of_none {registrations : List (Registration Handler)} {method url : Bytes}
    (none : (lastSuch registrations fun registration =>
      key registration.method registration.url = key method url) = none) :
    asked registrations method url = Option.none := by
  simp only [lastSuch, List.find?_eq_none, List.mem_reverse] at none
  simp only [asked, lastSuch, Option.map_eq_none_iff, List.find?_eq_none, List.mem_reverse]
  intro registration member suits
  refine none registration member ?_
  simp only [Bool.and_eq_true, decide_eq_true_eq] at suits ⊢
  obtain ⟨valid, rfl, rfl⟩ := suits
  exact ⟨valid, rfl⟩

/-- The last registration under the key, if it is for the pair, is the last one for it. -/
theorem asked_of_some {registrations : List (Registration Handler)}
    {registration : Registration Handler}
    (last : (lastSuch registrations fun other =>
      key other.method other.url = key registration.method registration.url) =
        some registration) :
    asked registrations registration.method registration.url = some registration.handler := by
  induction registrations using List.reverseRecOn with
  | nil => cases last
  | append_singleton registrations other inductionHypothesis =>
    rw [lastSuch_concat] at last
    rw [asked, lastSuch_concat]
    split at last
    case isTrue suits =>
      cases last
      have valid : registration.valid = true := (Bool.and_eq_true_iff.mp suits).1
      simp [valid]
    case isFalse later =>
      have apart : ¬ (other.valid && (decide (other.method = registration.method) &&
          decide (other.url = registration.url))) = true := by
        intro suits
        simp only [Bool.and_eq_true, decide_eq_true_eq] at suits later
        exact later ⟨suits.1, by rw [suits.2.1, suits.2.2]⟩
      rw [if_neg apart]
      exact inductionHypothesis last

theorem Unmistaken.exact {iteration : Iteration} {registrations : List (Registration Handler)}
    {context : HttpContext} (unmistaken : Unmistaken registrations context.method context.path) :
    Exact iteration registrations context := by
  unfold Exact
  simp only [Router.handle, handlers_routed]
  cases last : lastSuch registrations fun registration =>
      key registration.method registration.url = key context.method context.path with
  | none => rw [asked_of_none last, Option.map_none]
  | some registration =>
    have right : asked registrations context.method context.path = some registration.handler := by
      obtain ⟨method, url⟩ | same := unmistaken registration last
      · rw [← method, ← url] at last ⊢
        exact asked_of_some last
      · exact same
    rw [right, Option.map_some]

/-- A request is dispatched exactly if and only if the last registration under its key is
for the same pair, or for the same handler. -/
theorem handle_exact_iff (iteration : Iteration) (registrations : List (Registration Handler))
    (context : HttpContext) :
    Exact iteration registrations context ↔
      Unmistaken registrations context.method context.path := by
  refine ⟨fun exact registration last => .inr ?_, Unmistaken.exact⟩
  unfold Exact at exact
  simp only [Router.handle, handlers_routed, last, Option.map_some] at exact
  split at exact
  case h_1 handler asks =>
    cases exact
    exact asks
  case h_2 => cases exact

/-- A handler is run for a URL that nobody has registered. -/
theorem handle_mistaken :
    ¬ Exact ⟨id, fun _ => .refl _⟩ [.GET (ascii "/a-b/") 1]
      (.new { HttpRequest.new with method := ascii "GET-/a", url := ascii "b/" }
        ⟨[], 500, ascii "HTTP/1.1", []⟩) := by
  unfold Exact
  exact nofun

/-! ### Methods without a dash -/

/-- The first dash of a key is the one that joins, if the method has none. -/
theorem prefix_of_key {method other url path : Bytes} (second : byte '-' ∉ other)
    (same : method ++ byte '-' :: url = other ++ byte '-' :: path) : other <+: method := by
  obtain ⟨middle, rfl, rest⟩ | ⟨middle, rfl, rest⟩ := List.append_eq_append_iff.mp same
  · cases middle with
    | nil => rw [List.append_nil]
    | cons head middle =>
      rw [List.cons_append] at rest
      cases rest
      exact absurd (List.mem_append_right method (List.mem_cons_self ..)) second
  · exact List.prefix_append other middle

theorem key_inj {method other url path : Bytes} (first : byte '-' ∉ method)
    (second : byte '-' ∉ other) :
    key method url = key other path ↔ method = other ∧ url = path := by
  have joined : ∀ method url : Bytes, key method url = method ++ byte '-' :: url := fun _ _ => by
    simp [key, join, ascii, byte]
  rw [joined, joined]
  constructor
  · intro same
    obtain rfl : method = other := (prefix_of_key first same.symm).eq_of_length_le
      (prefix_of_key second same).length_le
    exact ⟨rfl, (List.cons.inj (List.append_cancel_left same)).2⟩
  · rintro ⟨rfl, rfl⟩
    rfl

/-- Requests are dispatched exactly as long as no method has a dash. -/
theorem exact_of_dashless (iteration : Iteration) (registrations : List (Registration Handler))
    (context : HttpContext)
    (registered : ∀ registration ∈ registrations, byte '-' ∉ registration.method)
    (requested : byte '-' ∉ context.method) : Exact iteration registrations context := by
  refine Unmistaken.exact fun registration last => .inl ?_
  have found := List.find?_some last
  have member := List.mem_reverse.mp (List.mem_of_find?_eq_some last)
  simp only [Bool.and_eq_true, decide_eq_true_eq] at found
  exact (key_inj (registered registration member) requested).mp found.2

end Luce.Http
