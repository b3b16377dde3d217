import SpeedMimi.Backend

/-! # Forwarding a request

`getClientIP`, `setProxyHeaders`, `getProto` and the request-building part of
`proxyRequest` in `internal/proxy/proxy.go`, with `IsTrustedProxy` of
`internal/config/config.go`. `proxyRequest` formats the backend's address and discards
it, then hands the incoming request itself to `client.Do`; a `fasthttp.Client` sends a
request to the scheme and host of the request's own URI, so that is where it goes.

Header names are compared exactly: `NewServer` sets `DisableHeaderNamesNormalizing`, so
`Peek` and `Set` match a name byte for byte, as it arrived.
The counter updates of `proxyRequest` are steps of the dispatcher in `SpeedMimi.World`.
-/

namespace SpeedMimi

namespace Request

def setHeader (req : Request) (key value : String) : Request :=
  { req with headers := (key, value) :: req.headers.filter fun kv => kv.1 ≠ key }

@[simp] theorem peek_setHeader_self (req : Request) (key value : String) :
    (req.setHeader key value).peek key = value := by
  simp [setHeader, peek]

theorem lookup_filter_ne {key key' : String} (h : key' ≠ key) (l : List (String × String)) :
    (l.filter fun kv => kv.1 ≠ key).lookup key' = l.lookup key' := by
  induction l with
  | nil => rfl
  | cons kv rest ih =>
    obtain ⟨k, v⟩ := kv
    by_cases hk : k = key
    · subst hk
      simp_all [List.lookup_cons, beq_false_of_ne h]
    · simp_all [List.filter, List.lookup_cons]

@[simp] theorem peek_setHeader_ne (req : Request) {key key' : String} (value : String)
    (h : key' ≠ key) : (req.setHeader key value).peek key' = req.peek key' := by
  simp only [setHeader, peek, List.lookup_cons, beq_false_of_ne h, lookup_filter_ne h]

theorem peek_setHeader (req : Request) (key value key' : String) :
    (req.setHeader key value).peek key' = if key' = key then value else req.peek key' := by
  split_ifs with hk
  · subst hk
    exact peek_setHeader_self _ _ _
  · exact peek_setHeader_ne _ _ hk

@[simp] theorem setHeader_uriHost (req : Request) (key value : String) :
    (req.setHeader key value).uriHost = req.uriHost := rfl

@[simp] theorem setHeader_isTLS (req : Request) (key value : String) :
    (req.setHeader key value).isTLS = req.isTLS := rfl

@[simp] theorem setHeader_method (req : Request) (key value : String) :
    (req.setHeader key value).method = req.method := rfl

@[simp] theorem setHeader_path (req : Request) (key value : String) :
    (req.setHeader key value).path = req.path := rfl

@[simp] theorem setHeader_remoteIP (req : Request) (key value : String) :
    (req.setHeader key value).remoteIP = req.remoteIP := rfl

end Request

namespace Proxy

def isSpace (c : Char) : Bool :=
  c.val ∈ [0x09, 0x0A, 0x0B, 0x0C, 0x0D, 0x20, 0x85, 0xA0, 0x1680, 0x2028, 0x2029, 0x202F,
    0x205F, 0x3000] || (0x2000 ≤ c.val && c.val ≤ 0x200A)

def trimSpace (s : String) : String :=
  ⟨((s.data.dropWhile isSpace).reverse.dropWhile isSpace).reverse⟩

def isTrustedProxy (netContains : String → String → Bool) (ip : String)
    (trustedProxies : List String) : Bool :=
  trustedProxies.any fun cidr => netContains cidr ip

/-- `getClientIP` against the server section of the current config. The character index
of the first comma stands for `strings.Index`: the comma is one byte, so the two agree on
`idx > 0` and on the text before it. -/
def getClientIP (netContains : String → String → Bool) (server : ServerConfig)
    (req : Request) : String :=
  if server.realIPHeader ≠ "" ∧ req.peek server.realIPHeader ≠ "" then
    req.peek server.realIPHeader
  else
    let xff := req.peek "X-Forwarded-For"
    let idx := xff.data.findIdx (· = ',')
    let ip := trimSpace ⟨xff.data.take idx⟩
    if xff ≠ "" ∧ idx < xff.length ∧ 0 < idx ∧
        isTrustedProxy netContains ip server.trustedProxies then ip
    else req.remoteIP

theorem findIdx_comma_of_not_mem {s : String} (hcomma : ',' ∉ s.data) :
    s.data.findIdx (· = ',') = s.length :=
  List.findIdx_eq_length_of_false fun c hc => by simpa using fun h : c = ',' => hcomma (h ▸ hc)

theorem findIdx_comma (first rest : String) (hcomma : ',' ∉ first.data) :
    (first ++ "," ++ rest).data.findIdx (· = ',') = first.length := by
  have hfirst : first.data.findIdx (· = ',') = first.data.length := findIdx_comma_of_not_mem hcomma
  have hhead : (",".data ++ rest.data).findIdx (· = ',') = 0 := rfl
  rw [String.data_append, String.data_append, List.append_assoc, List.findIdx_append, hfirst,
    if_neg (lt_irrefl _), hhead, Nat.zero_add]
  rfl

/-- Without a usable real-IP header, `getClientIP` trusts the first element of
`X-Forwarded-For` when that element, the address the client claims, lies in a trusted
network, whatever the peer the request came from; and it ignores an `X-Forwarded-For`
without a comma, even from a trusted peer. -/
theorem getClientIP_trusts_claimed_address (netContains : String → String → Bool)
    (server : ServerConfig) (req : Request)
    (hreal : server.realIPHeader = "" ∨ req.peek server.realIPHeader = "") :
    (∀ first rest, req.peek "X-Forwarded-For" = first ++ "," ++ rest → first ≠ "" →
        ',' ∉ first.data →
        getClientIP netContains server req =
          if isTrustedProxy netContains (trimSpace first) server.trustedProxies then trimSpace first
          else req.remoteIP) ∧
      (',' ∉ (req.peek "X-Forwarded-For").data → getClientIP netContains server req = req.remoteIP) := by
  have hnot : ¬(server.realIPHeader ≠ "" ∧ req.peek server.realIPHeader ≠ "") := by tauto
  refine ⟨fun first rest hxff hne hcomma => ?_, fun hcomma => ?_⟩
  · have hidx := findIdx_comma first rest hcomma
    have hpos : 0 < first.length := by
      rcases first with ⟨_ | ⟨c, cs⟩⟩
      · exact absurd rfl hne
      · exact Nat.succ_pos _
    have hlen : first.length < (first ++ "," ++ rest).length := by
      simp only [String.length_append]
      exact Nat.lt_of_lt_of_le (Nat.lt_succ_self _) (Nat.le_add_right _ _)
    have htake : (⟨(first ++ "," ++ rest).data.take first.length⟩ : String) = first := by
      rw [String.data_append, String.data_append, List.append_assoc]
      exact congrArg String.mk (List.take_left first.data _)
    have hxne : first ++ "," ++ rest ≠ "" := fun h => by
      rw [h] at hlen
      exact Nat.not_lt_zero _ hlen
    simp only [getClientIP, if_neg hnot, hxff, hidx, htake, ne_eq, hxne, not_false_eq_true, hlen,
      hpos, true_and]
  · simp only [getClientIP, if_neg hnot]
    rw [if_neg]
    rintro ⟨-, hlt, -⟩
    rw [findIdx_comma_of_not_mem hcomma] at hlt
    exact lt_irrefl _ hlt

/-- A request from the peer `203.0.113.9`, outside the trusted `10.0.0.0/8`, that names
`10.0.0.1` first in `X-Forwarded-For` is taken to come from `10.0.0.1`. -/
theorem getClientIP_spoofed_by_untrusted_peer :
    let netContains : String → String → Bool := fun cidr ip =>
      cidr = "10.0.0.0/8" && ip.data.take 3 = "10.".data
    let server : ServerConfig := ⟨"0.0.0.0", 8080, 0, 0, 0, "X-Real-IP", ["10.0.0.0/8"]⟩
    let req : Request := ⟨"GET", "/", "proxy.local",
      [("X-Forwarded-For", "10.0.0.1, 198.51.100.7")], "203.0.113.9", false⟩
    isTrustedProxy netContains req.remoteIP server.trustedProxies = false ∧
      getClientIP netContains server req = "10.0.0.1" ∧
      (server.realIPHeader = "" ∨ req.peek server.realIPHeader = "") ∧
      (∀ first rest, req.peek "X-Forwarded-For" = first ++ "," ++ rest → first ≠ "" →
        ',' ∉ first.data →
        getClientIP netContains server req =
          if isTrustedProxy netContains (trimSpace first) server.trustedProxies then trimSpace first
          else req.remoteIP) ∧
      (',' ∉ (req.peek "X-Forwarded-For").data → getClientIP netContains server req = req.remoteIP) := by
  intro netContains server req
  have hreal : server.realIPHeader = "" ∨ req.peek server.realIPHeader = "" := .inr (by decide)
  exact ⟨by decide, by decide, hreal, getClientIP_trusts_claimed_address netContains server req hreal⟩

def getProto (req : Request) : String := if req.isTLS then "https" else "http"

def setProxyHeaders (netContains : String → String → Bool) (server : ServerConfig)
    (req : Request) : Request :=
  let clientIP := getClientIP netContains server req
  let existing := req.peek "X-Forwarded-For"
  let req := if existing ≠ "" then req.setHeader "X-Forwarded-For" (existing ++ ", " ++ clientIP)
    else req.setHeader "X-Forwarded-For" clientIP
  let req := if server.realIPHeader ≠ "" then req.setHeader server.realIPHeader clientIP else req
  let req := req.setHeader "X-Forwarded-Proto" (getProto req)
  req.setHeader "X-Forwarded-Host" req.uriHost

def backendURL (b : Backend) : String := b.scheme ++ "://" ++ b.host ++ ":" ++ toString b.port

def destination (req : Request) : String := getProto req ++ "://" ++ req.uriHost

structure Outbound where
  destination : String
  request : Request
  deriving DecidableEq

def proxyRequest (netContains : String → String → Bool) (server : ServerConfig)
    (req : Request) (backend : Backend) : Outbound :=
  let _url := backendURL backend
  let req := setProxyHeaders netContains server req
  ⟨destination req, req⟩

theorem setProxyHeaders_uriHost (netContains : String → String → Bool) (server : ServerConfig)
    (req : Request) : (setProxyHeaders netContains server req).uriHost = req.uriHost := by
  unfold setProxyHeaders
  dsimp only
  split_ifs <;> rfl

theorem setProxyHeaders_isTLS (netContains : String → String → Bool) (server : ServerConfig)
    (req : Request) : (setProxyHeaders netContains server req).isTLS = req.isTLS := by
  unfold setProxyHeaders
  dsimp only
  split_ifs <;> rfl

theorem peek_setForwardedHost (r : Request) (key : String) :
    ((r.setHeader "X-Forwarded-Proto" (getProto r)).setHeader "X-Forwarded-Host"
        (r.setHeader "X-Forwarded-Proto" (getProto r)).uriHost).peek key =
      if key = "X-Forwarded-Host" then r.uriHost
      else if key = "X-Forwarded-Proto" then getProto r else r.peek key := by
  rw [Request.peek_setHeader, Request.peek_setHeader]
  rfl

theorem peek_setRealIP (req : Request) (realIPHeader clientIP key : String) :
    (if realIPHeader ≠ "" then
        (if req.peek "X-Forwarded-For" ≠ "" then
          req.setHeader "X-Forwarded-For" (req.peek "X-Forwarded-For" ++ ", " ++ clientIP)
        else req.setHeader "X-Forwarded-For" clientIP).setHeader realIPHeader clientIP
      else if req.peek "X-Forwarded-For" ≠ "" then
        req.setHeader "X-Forwarded-For" (req.peek "X-Forwarded-For" ++ ", " ++ clientIP)
      else req.setHeader "X-Forwarded-For" clientIP).peek key =
      if realIPHeader ≠ "" ∧ key = realIPHeader then clientIP
      else if key = "X-Forwarded-For" then
        (if req.peek "X-Forwarded-For" ≠ "" then req.peek "X-Forwarded-For" ++ ", " ++ clientIP
          else clientIP)
      else req.peek key := by
  have hxff : (if req.peek "X-Forwarded-For" ≠ "" then
        req.setHeader "X-Forwarded-For" (req.peek "X-Forwarded-For" ++ ", " ++ clientIP)
      else req.setHeader "X-Forwarded-For" clientIP).peek key =
      if key = "X-Forwarded-For" then
        (if req.peek "X-Forwarded-For" ≠ "" then req.peek "X-Forwarded-For" ++ ", " ++ clientIP
          else clientIP)
      else req.peek key := by
    by_cases hk : key = "X-Forwarded-For"
    · subst hk
      rw [if_pos rfl]
      split_ifs <;> exact Request.peek_setHeader_self _ _ _
    · rw [if_neg hk]
      split_ifs <;> exact Request.peek_setHeader_ne _ _ hk
  by_cases hreal : realIPHeader ≠ ""
  · rw [if_pos hreal, Request.peek_setHeader, hxff]
    simp only [and_iff_right hreal]
  · have hnot : ¬(realIPHeader ≠ "" ∧ key = realIPHeader) := fun h => hreal h.1
    rw [if_neg hreal, hxff]
    simp only [hnot, if_false]

/-- What `setProxyHeaders` leaves: the request line, the host, the peer and the TLS state as
they were, and the headers as the last `Set` of each name made them. A `RealIPHeader` naming
`X-Forwarded-Proto` or `X-Forwarded-Host` is overwritten by the later `Set`, and one naming
`X-Forwarded-For` replaces the forwarded chain by the client address alone. -/
theorem setProxyHeaders_spec (netContains : String → String → Bool) (server : ServerConfig)
    (req : Request) :
    let out := setProxyHeaders netContains server req
    let clientIP := getClientIP netContains server req
    let existing := req.peek "X-Forwarded-For"
    (out.method = req.method ∧ out.path = req.path ∧ out.uriHost = req.uriHost ∧
      out.remoteIP = req.remoteIP ∧ out.isTLS = req.isTLS) ∧
    ∀ key, out.peek key =
      if key = "X-Forwarded-Host" then req.uriHost
      else if key = "X-Forwarded-Proto" then getProto req
      else if server.realIPHeader ≠ "" ∧ key = server.realIPHeader then clientIP
      else if key = "X-Forwarded-For" then
        (if existing ≠ "" then existing ++ ", " ++ clientIP else clientIP)
      else req.peek key := by
  dsimp only
  refine ⟨by simp only [setProxyHeaders, apply_ite Request.method, apply_ite Request.path,
    apply_ite Request.uriHost, apply_ite Request.remoteIP, apply_ite Request.isTLS,
    Request.setHeader_uriHost, Request.setHeader_isTLS, Request.setHeader_method,
    Request.setHeader_path, Request.setHeader_remoteIP, ite_self, and_self], fun key => ?_⟩
  unfold setProxyHeaders
  dsimp only
  rw [peek_setForwardedHost, peek_setRealIP]
  simp only [getProto, apply_ite Request.uriHost, apply_ite Request.isTLS, Request.setHeader_uriHost,
    Request.setHeader_isTLS, ite_self]

/-- The outbound request goes to the incoming request's own scheme and host, whichever
backend was chosen. -/
theorem proxyRequest_destination (netContains : String → String → Bool) (server : ServerConfig)
    (req : Request) (backend : Backend) :
    (proxyRequest netContains server req backend).destination = getProto req ++ "://" ++ req.uriHost := by
  simp only [proxyRequest, destination, getProto, setProxyHeaders_uriHost, setProxyHeaders_isTLS]

end Proxy

end SpeedMimi
