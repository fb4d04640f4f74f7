import CppGate.Foundations.Text

/-!
# HTTP messages

The data of Boost.Beast's requests and responses that the server reads and writes. The fields of a
message are a list of names and values in the order they were inserted, and names are compared
without case. A body is always a string here.

Of Beast's own functions these matter: how `prepare_payload` announces the length of a body in the
fields and how the field `Connection` is read and written, which are parameters (`Beast`), and that
`prepare_payload` throws for a body in a response that cannot have one, which is assumed
(`HttpResponse.preparePayload`).
-/

namespace CppGate.Http

/-! ### Fields -/

/-- A header field. -/
structure Field where
  name : Text
  value : Text
  deriving DecidableEq, Repr

/-- `equal_range(name)`: the values of the fields of that name, in insertion order. -/
def equalRange (fields : List Field) (name : Text) : List Text :=
  (fields.filter fun field ↦ Text.iequals field.name name).map Field.value

/-- `find(name)`: the value of the first field of that name. -/
def find (fields : List Field) (name : Text) : Option Text :=
  (fields.find? fun field ↦ Text.iequals field.name name).map Field.value

/-- `set(name, value)`: the only field of that name from now on. -/
def set (fields : List Field) (name value : Text) : List Field :=
  fields.filter (fun field ↦ !Text.iequals field.name name) ++ [⟨name, value⟩]

/-- A field that was set is found. -/
theorem find_set_self (fields : List Field) (name value : Text) :
    find (set fields name value) name = some value := by
  have hnone : (fields.filter fun field ↦ !Text.iequals field.name name).find?
      (fun field ↦ Text.iequals field.name name) = none := by
    rw [List.find?_eq_none]
    intro field hfield
    simpa using (List.mem_filter.1 hfield).2
  have hself : Text.iequals name name = true := beq_self_eq_true _
  rw [find, set, List.find?_append, hnone, List.find?_singleton, if_pos hself]
  rfl

/-- Setting a field leaves the others. -/
theorem filter_set {p : Text → Bool} (hp : ∀ x y, Text.iequals x y = true → p x = p y)
    (fields : List Field) {name : Text} (hname : p name = false) (value : Text) :
    (set fields name value).filter (fun field ↦ p field.name) =
      fields.filter fun field ↦ p field.name := by
  have hnew : [(⟨name, value⟩ : Field)].filter (fun field ↦ p field.name) = [] :=
    List.filter_cons_of_neg (hname ▸ Bool.false_ne_true)
  rw [set, List.filter_append, hnew, List.append_nil, List.filter_filter]
  refine List.filter_congr fun field _ ↦ ?_
  cases hfield : Text.iequals field.name name with
  | false => rw [Bool.not_false, Bool.and_true]
  | true => rw [hp _ _ hfield, hname, Bool.false_and]

/-- Fields that contain all of a name contain the first one. -/
theorem find_filter {p : Text → Bool} (hp : ∀ x y, Text.iequals x y = true → p x = p y)
    (fields : List Field) {name : Text} (hname : p name = true) :
    find (fields.filter fun field ↦ p field.name) name = find fields name := by
  rw [find, find, List.find?_filter]
  congr 2
  funext field
  cases hfield : Text.iequals field.name name with
  | false => rw [decide_eq_false fun h ↦ Bool.false_ne_true h.2]
  | true => rw [hp _ _ hfield, hname]; rfl

/-- Setting a field leaves the others. -/
theorem find_set_ne (fields : List Field) {name other : Text}
    (h : Text.iequals name other = false) (value : Text) :
    find (set fields name value) other = find fields other := by
  have hother : Text.iequals other other = true := beq_self_eq_true _
  rw [← find_filter (Text.iequals_congr other) _ hother,
    filter_set (Text.iequals_congr other) fields h, find_filter (Text.iequals_congr other) _ hother]

/-- After it was set a field occurs once. -/
theorem equalRange_set_self (fields : List Field) (name value : Text) :
    equalRange (set fields name value) name = [value] := by
  have hself : Text.iequals name name = true := beq_self_eq_true _
  have hold : (fields.filter fun field ↦ !Text.iequals field.name name).filter
      (fun field ↦ Text.iequals field.name name) = [] := by
    rw [List.filter_eq_nil_iff]
    intro field hfield
    simpa using (List.mem_filter.1 hfield).2
  have hnew : [(⟨name, value⟩ : Field)].filter (fun field ↦ Text.iequals field.name name) =
      [⟨name, value⟩] := List.filter_cons_of_pos hself
  rw [equalRange, set, List.filter_append, hold, hnew]
  rfl

theorem equalRange_set_ne (fields : List Field) {name other : Text}
    (h : Text.iequals name other = false) (value : Text) :
    equalRange (set fields name value) other = equalRange fields other := by
  rw [equalRange, filter_set (Text.iequals_congr other) fields h, equalRange]

/-! ### Beast -/

/-- What Beast does with the fields of a message. -/
structure Beast where
  /-- What `prepare_payload` does to the fields of a message whose body has this length. -/
  contentLength : List Field → ℕ → List Field
  /-- `keep_alive()` of a message of this version. -/
  keepAlive : ℕ → List Field → Bool
  /-- What `keep_alive(bool)` does to the fields of a message of this version. -/
  setKeepAlive : ℕ → List Field → Bool → List Field

/-- What is assumed of Beast where the server relies on it. -/
structure Beast.Lawful (beast : Beast) : Prop where
  keepAlive_default : ∀ version fields, find fields "Connection".toList = none →
    beast.keepAlive version fields = decide (11 ≤ version)
  keepAlive_setKeepAlive : ∀ version fields keepAlive,
    beast.keepAlive version (beast.setKeepAlive version fields keepAlive) = keepAlive
  keepAlive_contentLength : ∀ version fields length,
    beast.keepAlive version (beast.contentLength fields length) = beast.keepAlive version fields

/-! ### Requests -/

/-- `boost::beast::http::verb`. -/
inductive Verb
  | unknown | delete | get | head | post | put | connect | options | trace | copy | lock | mkcol
  | move | propfind | proppatch | search | unlock | bind | rebind | unbind | acl | report
  | mkactivity | checkout | merge | msearch | notify | subscribe | unsubscribe | patch | purge
  | mkcalendar | link | unlink
  deriving DecidableEq, Repr

/-- `http::to_string(verb)`. -/
def Verb.text : Verb → Text
  | .unknown => "<unknown>".toList
  | .delete => "DELETE".toList
  | .get => "GET".toList
  | .head => "HEAD".toList
  | .post => "POST".toList
  | .put => "PUT".toList
  | .connect => "CONNECT".toList
  | .options => "OPTIONS".toList
  | .trace => "TRACE".toList
  | .copy => "COPY".toList
  | .lock => "LOCK".toList
  | .mkcol => "MKCOL".toList
  | .move => "MOVE".toList
  | .propfind => "PROPFIND".toList
  | .proppatch => "PROPPATCH".toList
  | .search => "SEARCH".toList
  | .unlock => "UNLOCK".toList
  | .bind => "BIND".toList
  | .rebind => "REBIND".toList
  | .unbind => "UNBIND".toList
  | .acl => "ACL".toList
  | .report => "REPORT".toList
  | .mkactivity => "MKACTIVITY".toList
  | .checkout => "CHECKOUT".toList
  | .merge => "MERGE".toList
  | .msearch => "M-SEARCH".toList
  | .notify => "NOTIFY".toList
  | .subscribe => "SUBSCRIBE".toList
  | .unsubscribe => "UNSUBSCRIBE".toList
  | .patch => "PATCH".toList
  | .purge => "PURGE".toList
  | .mkcalendar => "MKCALENDAR".toList
  | .link => "LINK".toList
  | .unlink => "UNLINK".toList

/-- `boost::beast::http::request<string_body>`. -/
structure Request where
  method : Verb
  target : Text
  /-- 11 for HTTP/1.1. -/
  version : ℕ := 11
  fields : List Field := []
  body : Text := []
  deriving DecidableEq, Repr

/-- `keep_alive`. -/
def Request.keepAlive (beast : Beast) (req : Request) : Bool :=
  beast.keepAlive req.version req.fields

/-! ### Responses -/

/-- The statuses of responses that have no body: 1xx, 204 and 304. -/
def bodyless (status : ℕ) : Bool :=
  decide (100 ≤ status ∧ status < 200) || status == 204 || status == 304

/-- How a call ends. -/
inductive Outcome
  | returned
  | threw
  deriving DecidableEq, Repr

/-- `HttpResponse`. Status 0 means "nobody answered yet". -/
structure HttpResponse where
  status : ℕ := 0
  version : ℕ := 11
  fields : List Field := []
  body : Text := []
  deriving DecidableEq, Repr

namespace HttpResponse

variable (beast : Beast)

/-- `hasResponse`. -/
def hasResponse (res : HttpResponse) : Bool :=
  res.status != 0

/-- `header(name, value)`. -/
def header (res : HttpResponse) (name value : Text) : HttpResponse :=
  { res with fields := set res.fields name value }

/-- `keepAlive`, the getter. -/
def keepAlive (res : HttpResponse) : Bool :=
  beast.keepAlive res.version res.fields

/-- `keepAlive`, the setter. -/
def setKeepAlive (res : HttpResponse) (keepAlive : Bool) : HttpResponse :=
  { res with fields := beast.setKeepAlive res.version res.fields keepAlive }

/-- `prepare_payload`: throws if the response has a body and must not have one. -/
def preparePayload (res : HttpResponse) : Outcome × HttpResponse :=
  if bodyless res.status = true ∧ res.body ≠ [] then
    (.threw, res)
  else
    (.returned, { res with fields := beast.contentLength res.fields res.body.length })

/-- `send(status, content)`. -/
def send (res : HttpResponse) (status : ℕ) (content : Text) : Outcome × HttpResponse :=
  preparePayload beast { res with status, body := content }

/-- `send(status, content, content_type)`. -/
def sendAs (res : HttpResponse) (status : ℕ) (content contentType : Text) :
    Outcome × HttpResponse :=
  send beast { res with fields := set res.fields "Content-Type".toList contentType } status content

/-- `sendNoContent`. -/
def sendNoContent (res : HttpResponse) : HttpResponse :=
  { res with status := 204 }

/-- `sendContent`. -/
def sendContent (res : HttpResponse) (content : Text) : Outcome × HttpResponse :=
  send beast res 200 content

/-- `sendNotFound`. -/
def sendNotFound (res : HttpResponse) (content : Text) : Outcome × HttpResponse :=
  send beast res 404 content

/-- `sendUnauthorized`. -/
def sendUnauthorized (res : HttpResponse) (content : Text) : Outcome × HttpResponse :=
  send beast res 401 content

/-- `sendJSON`. -/
def sendJSON (res : HttpResponse) (content : Text) : Outcome × HttpResponse :=
  sendAs beast res 200 content "application/json".toList

variable {beast}

/-- A call of send() returns, unless the status forbids the body. -/
theorem send_fst (res : HttpResponse) (status : ℕ) (content : Text) :
    (send beast res status content).1 = .returned ↔ ¬(bodyless status = true ∧ content ≠ []) := by
  rw [send, preparePayload]
  dsimp only
  split
  · next h => simp [h]
  · next h => simp only [h, not_false_eq_true]

/-- The status is set, also where send() throws. -/
theorem send_status (res : HttpResponse) (status : ℕ) (content : Text) :
    (send beast res status content).2.status = status := by
  rw [send, preparePayload]
  split <;> rfl

theorem send_body (res : HttpResponse) (status : ℕ) (content : Text) :
    (send beast res status content).2.body = content := by
  rw [send, preparePayload]
  split <;> rfl

end HttpResponse

/-- Messages whose field `Connection` has one token at most, for runs on fixed inputs. -/
def plainBeast : Beast where
  contentLength fields n := set fields "Content-Length".toList (Nat.toDigits 10 n)
  keepAlive version fields :=
    match find fields "Connection".toList with
    | none => decide (11 ≤ version)
    | some value =>
      if version < 11 then Text.iequals value "keep-alive".toList
      else !Text.iequals value "close".toList
  setKeepAlive _ fields keepAlive :=
    set fields "Connection".toList
      (if keepAlive then "keep-alive".toList else "close".toList)

theorem plainBeast_lawful : plainBeast.Lawful where
  keepAlive_default version fields h := by
    show (match find fields "Connection".toList with
      | none => decide (11 ≤ version)
      | some value => _) = _
    rw [h]
  keepAlive_setKeepAlive version fields keepAlive := by
    show (match find (set fields "Connection".toList _) "Connection".toList with
      | none => _
      | some value => if version < 11 then Text.iequals value "keep-alive".toList
        else !Text.iequals value "close".toList) = _
    rw [find_set_self]
    cases keepAlive <;> dsimp only <;> split <;> rfl
  keepAlive_contentLength version fields length := by
    have hne : Text.iequals "Content-Length".toList "Connection".toList = false := by decide
    show (match find (set fields "Content-Length".toList _) "Connection".toList with
      | none => _
      | some value => _) = _
    rw [find_set_ne _ hne]
    rfl

end CppGate.Http
