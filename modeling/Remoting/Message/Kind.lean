/-!
# Remoting.Message.Kind

The twelve kinds of message. Six of them expect a response, two are responses.
-/

namespace Remoting

/-- What a message is for. -/
inductive MessageKind where
  | oneWayCall
  | signalDisconnect
  | signalEmit
  | propertySet
  | typeListQuery
  | helloRequest
  | twoWayCall
  | signalConnect
  | signalEmitTwoWay
  | propertyGet
  | callResult
  | error
  deriving DecidableEq, Repr, Inhabited

namespace MessageKind

/-- Every kind. -/
def all : List MessageKind :=
  [.oneWayCall, .signalDisconnect, .signalEmit, .propertySet, .typeListQuery, .helloRequest,
   .twoWayCall, .signalConnect, .signalEmitTwoWay, .propertyGet, .callResult, .error]

/-- The byte that stands for a kind. -/
def code : MessageKind → UInt8
  | .oneWayCall => 0x1
  | .signalDisconnect => 0x2
  | .signalEmit => 0x3
  | .propertySet => 0x4
  | .typeListQuery => 0x6
  | .helloRequest => 0x8
  | .twoWayCall => 0x9
  | .signalConnect => 0xa
  | .signalEmitTwoWay => 0xb
  | .propertyGet => 0xc
  | .callResult => 0xd
  | .error => 0xe

/-- The kind that a byte stands for. -/
def ofCode? (b : UInt8) : Option MessageKind := all.find? (·.code == b)

/-- The name of a kind. -/
def name : MessageKind → String
  | .oneWayCall => "one_way_call"
  | .signalDisconnect => "signal_disconnect"
  | .signalEmit => "signal_emit"
  | .propertySet => "property_set"
  | .typeListQuery => "type_list_query"
  | .helloRequest => "hello_request"
  | .twoWayCall => "two_way_call"
  | .signalConnect => "signal_connect"
  | .signalEmitTwoWay => "signal_emit_two_way"
  | .propertyGet => "property_get"
  | .callResult => "call_result"
  | .error => "error"

/-- The name of a kind in descriptions of requests. -/
def title : MessageKind → String
  | .oneWayCall => "OneWayCall"
  | .signalDisconnect => "SignalDisconnect"
  | .signalEmit => "SignalEmit"
  | .propertySet => "PropertySet"
  | .typeListQuery => "TypeListQuery"
  | .helloRequest => "HelloRequest"
  | .twoWayCall => "TwoWayCall"
  | .signalConnect => "SignalConnect"
  | .signalEmitTwoWay => "SignalEmitTwoWay"
  | .propertyGet => "PropertyGet"
  | .callResult => "CallResult"
  | .error => "Error"

/-- The kind with the given name. -/
def ofName? (s : String) : Option MessageKind := all.find? (·.name == s)

/-- Whether the receiver of such a message owes a response. -/
def expectsResponse : MessageKind → Bool
  | .typeListQuery | .helloRequest | .twoWayCall | .signalConnect | .signalEmitTwoWay
  | .propertyGet => true
  | _ => false

/-- Whether such a message answers a request. -/
def isResponse : MessageKind → Bool
  | .callResult | .error => true
  | _ => false

@[simp] theorem ofCode?_code (k : MessageKind) : ofCode? k.code = some k := by cases k <;> rfl

/-- A byte stands for at most one kind. -/
theorem ofCode?_eq_some_iff {b : UInt8} {k : MessageKind} : ofCode? b = some k ↔ k.code = b := by
  constructor
  · intro h
    have := List.find?_some h
    simpa using this
  · rintro rfl
    exact ofCode?_code k

/-- No response expects a response. -/
theorem expectsResponse_of_isResponse {k : MessageKind} (h : k.isResponse = true) :
    k.expectsResponse = false := by
  cases k <;> simp_all [isResponse, expectsResponse]

end MessageKind

end Remoting
