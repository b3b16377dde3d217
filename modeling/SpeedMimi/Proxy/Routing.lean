import SpeedMimi.LoadBalancer

/-! # Routing a request

`findRoutingRule`, `detectProtocol` and `determineLBType` of `internal/proxy/proxy.go`.
`findRoutingRule` returns the first rule, in the order the `range` over the routing map
visits them, whose path is a prefix of the request path, and falls back to the rule
keyed `default`. Go randomises that order on every `range`.
-/

namespace SpeedMimi.Proxy

/-- `strings.HasPrefix(s, prefix)`. Paths are UTF-8 text, for which the byte prefix and the
character prefix agree. -/
def hasPrefix (s pre : String) : Bool := pre.data.isPrefixOf s.data

def findRoutingRule (routing : GoMap String RoutingRule) (order : List (String × RoutingRule))
    (path : String) : Option RoutingRule :=
  match order.find? fun e => hasPrefix path e.2.path with
  | some e => some e.2
  | none => routing.get? "default"

def detectProtocol (req : Request) : String :=
  if req.peek "Upgrade" = "websocket" then ProtocolType.webSocket
  else if req.peek "Accept" = "text/event-stream" then ProtocolType.sse
  else if req.isTLS then ProtocolType.https
  else ProtocolType.http

def determineLBType (rule : RoutingRule) (req : Request) : String :=
  match rule.protocols.get? (detectProtocol req) with
  | some lbType => lbType
  | none => rule.loadBalancer

theorem exists_order_findRoutingRule {routing : GoMap String RoutingRule} {path : String}
    {e : String × RoutingRule} (he : e ∈ routing.entries) (hmatch : hasPrefix path e.2.path) :
    ∃ order, routing.IsOrder order ∧ findRoutingRule routing order path = some e.2 :=
  ⟨_, (List.perm_cons_erase he).symm, by simp [findRoutingRule, hmatch]⟩

/-- For every routing table and path: when some rule's path is a prefix of the path, every
visiting order returns such a rule, and every such rule is returned by some order; when
none is, every order returns the `default` rule, or `nil` without one. -/
theorem findRoutingRule_returns_a_match (routing : GoMap String RoutingRule) (path : String) :
    (∀ order, routing.IsOrder order → (∃ e ∈ routing.entries, hasPrefix path e.2.path) →
      ∃ e ∈ routing.entries, hasPrefix path e.2.path ∧
        findRoutingRule routing order path = some e.2) ∧
    (∀ e ∈ routing.entries, hasPrefix path e.2.path →
      ∃ order, routing.IsOrder order ∧ findRoutingRule routing order path = some e.2) ∧
    (∀ order, routing.IsOrder order → (∀ e ∈ routing.entries, hasPrefix path e.2.path = false) →
      findRoutingRule routing order path = routing.get? "default") := by
  refine ⟨fun order horder ⟨e, he, hmatch⟩ => ?_, fun e he hmatch => exists_order_findRoutingRule he hmatch,
    fun order horder hnone => ?_⟩
  · cases hfind : order.find? fun e => hasPrefix path e.2.path with
    | none =>
      have := List.find?_eq_none.mp hfind e (horder.mem_iff.mpr he)
      simp_all
    | some e' =>
      have hmatch' := List.find?_some hfind
      exact ⟨e', horder.mem_iff.mp (List.mem_of_find?_eq_some hfind), hmatch',
        by simp [findRoutingRule, hfind]⟩
  · have hfind : (order.find? fun e => hasPrefix path e.2.path) = none :=
      List.find?_eq_none.mpr fun e he => by simp [hnone e (horder.mem_iff.mp he)]
    simp [findRoutingRule, hfind]

def sampleRule (path upstream : String) : RoutingRule :=
  ⟨path, upstream, LoadBalancerType.leastConnections, GoMap.empty⟩

/-- With rules `/` and `/api`, a range that visits `/` first sends `/api/x` to `/`'s
upstream although `/api` matches it with a longer path. -/
theorem findRoutingRule_not_longest :
    let routing : GoMap String RoutingRule :=
      ⟨[("root", sampleRule "/" "web"), ("api", sampleRule "/api" "api")], by decide⟩
    routing.IsOrder routing.entries ∧
      findRoutingRule routing routing.entries "/api/x" = some (sampleRule "/" "web") ∧
      hasPrefix "/api/x" "/api" = true ∧ "/".length < "/api".length := by
  decide

end SpeedMimi.Proxy
