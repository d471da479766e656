import KafkaEdgeRouter.Identifiers

/-!
# Authentication

How the transports find out on whose behalf a request is made. Credentials are the headers that a
request carries, over HTTP or as the metadata of gRPC, as a lookup of those values that are visible
ASCII text. The lookup of gRPC metadata takes a name that ends in `-bin` for the name of a binary
value and finds no text under it. The library behind signed tokens is a parameter: it reads a
token's header, and it returns the claims of a token that it has verified with a key at some time.
-/

namespace KafkaEdgeRouter.Api

inductive ApiError
  | unauthorized
  | forbidden
  | badRequest (text : String)
  | rateLimited
  | publisherUnavailable
  | publisherTimeout
  | publisherQueueFull
  | backend (text : String)
  deriving DecidableEq

def ApiError.display : ApiError → String
  | .unauthorized => "authentication required"
  | .forbidden => "tenant is not authorized"
  | .badRequest text => text
  | .rateLimited => "rate limit exceeded"
  | .publisherUnavailable => "publishing is not configured"
  | .publisherTimeout => "publish acknowledgement timed out"
  | .publisherQueueFull => "publisher queue is full"
  | .backend text => text

/-- The codes of gRPC that the service uses. -/
inductive Code
  | unauthenticated
  | permissionDenied
  | invalidArgument
  | resourceExhausted
  | failedPrecondition
  | deadlineExceeded
  | internal
  deriving DecidableEq

structure Status where
  code : Code
  message : String
  deriving DecidableEq

def ApiError.statusCode : ApiError → Code
  | .unauthorized => .unauthenticated
  | .forbidden => .permissionDenied
  | .badRequest _ => .invalidArgument
  | .rateLimited | .publisherQueueFull => .resourceExhausted
  | .publisherUnavailable => .failedPrecondition
  | .publisherTimeout => .deadlineExceeded
  | .backend _ => .internal

def ApiError.intoStatus (error : ApiError) : Status := ⟨error.statusCode, error.display⟩

def Status.invalidArgument (message : String) : Status := ⟨.invalidArgument, message⟩

inductive AuthMode
  | disabled
  | staticBearer
  | trustedHeader
  | jwt
  | proxyMtls
  deriving DecidableEq

inductive Algorithm
  | rs256
  | rs384
  | rs512
  | es256
  | es384
  | edDSA
  | other (name : String)
  deriving DecidableEq

structure JwtConfig where
  issuer : String := ""
  audience : String := ""
  algorithms : List String := ["ES256"]
  clockSkewSecs : ℕ := 30
  tenantClaim : String := "tenant_id"
  scopeClaim : String := "scope"
  subscribeScope : String := "router.subscribe"
  publishScope : String := "router.publish"

structure ProxyIdentity where
  tenantId : String := ""
  subscribe : Bool := false
  publish : Bool := false

structure AuthConfig where
  mode : AuthMode := .disabled
  defaultTenant : Option String := none
  tenantHeader : String := "x-tenant-id"
  bearerTokens : List (String × String) := []
  publishTenants : List String := []
  jwt : JwtConfig := {}
  proxyIdentityHeader : String := "x-client-identity"
  proxyIdentities : List (String × ProxyIdentity) := []

structure Principal where
  tenantId : String
  canSubscribe : Bool
  canPublish : Bool
  deriving DecidableEq

/-- A JSON value as far as claims are read: the items of an array that are strings, and where the
others stand. -/
inductive ClaimValue
  | string (text : String)
  | array (items : List (Option String))
  | other
  deriving DecidableEq

structure TokenHeader where
  alg : Algorithm
  kid : Option String
  deriving DecidableEq

structure Validation where
  algorithms : List Algorithm
  leeway : ℕ
  audience : String
  issuer : String
  requiredClaims : List String
  deriving DecidableEq

structure TokenLibrary where
  header : String → Option TokenHeader
  claims : String → List (String × ClaimValue)
  /-- Signature, times and required claims are in order at this time. -/
  verifies : ℕ → String → String → Validation → Bool

/-- The claims of a token that was verified with the key. -/
def TokenLibrary.decode (library : TokenLibrary) (now : ℕ) (token key : String)
    (validation : Validation) : Option (List (String × ClaimValue)) :=
  if library.verifies now token key validation then some (library.claims token) else none

structure Authenticator where
  config : AuthConfig
  jwks : List (String × String)

abbrev Credentials : Type := String → Option String

def orUnauthorized {α : Type} : Option α → Except ApiError α
  | some a => .ok a
  | none => .error .unauthorized

def httpHeader (headers : Credentials) (name : String) : Except ApiError String :=
  orUnauthorized (headers name)

def httpAuthorization (headers : Credentials) : Except ApiError String :=
  httpHeader headers "authorization"

/-- The names that gRPC reserves for binary values, in this spelling only. -/
def isBinaryKey (name : String) : Bool := "-bin".toList.isSuffixOf name.toList

def grpcMetadata (metadata : Credentials) (name : String) : Except ApiError String :=
  orUnauthorized (if isBinaryKey name then none else metadata name)

def stripPrefix (start value : String) : Option String :=
  if start.toList.isPrefixOf value.toList then
    some (String.ofList (value.toList.drop start.toList.length))
  else none

def parseBearer (value : String) : Except ApiError String :=
  orUnauthorized ((stripPrefix "Bearer " value).or (stripPrefix "bearer " value))

def principalWithPermissions (tenant : String) (subscribe publish : Bool) :
    Except ApiError Principal :=
  let tenant := String.ofList (trim tenant)
  if tenant.isEmpty ∨ tenant.utf8ByteSize > 256 ∨ tenant.toList.any isControl then
    .error (.badRequest "invalid tenant identity")
  else .ok ⟨tenant, subscribe, publish⟩

/-- The algorithms of the configuration, all of them asymmetric. -/
def configuredAlgorithms (values : List String) : Option (List Algorithm) :=
  values.mapM fun value =>
    match value with
    | "RS256" => some .rs256
    | "RS384" => some .rs384
    | "RS512" => some .rs512
    | "ES256" => some .es256
    | "ES384" => some .es384
    | "EdDSA" => some .edDSA
    | _ => none

def isAsciiWhitespace (c : Char) : Bool :=
  c == ' ' || c == '\t' || c == '\n' || c == '\x0C' || c == '\r'

def splitAsciiWhitespace (text : String) : List String :=
  ((text.toList.splitOnP isAsciiWhitespace).filter (fun word => !word.isEmpty)).map String.ofList

def claimScopes : Option ClaimValue → Option (List String)
  | some (.string scopes) => some (splitAsciiWhitespace scopes)
  | some (.array scopes) => scopes.mapM id
  | _ => none

def ClaimValue.asStr : ClaimValue → Option String
  | .string text => some text
  | _ => none

namespace Authenticator

variable (auth : Authenticator)

def disabledPrincipal (requested : Option String) : Except ApiError Principal :=
  match (requested.filter (fun tenant => !(trim tenant).isEmpty)).or auth.config.defaultTenant with
  | none => .error (.badRequest "tenant_id is required")
  | some tenant =>
    principalWithPermissions tenant true (auth.config.publishTenants.contains tenant)

def staticToken (value : String) : Except ApiError Principal := do
  let token ← parseBearer value
  let tenant ← orUnauthorized (auth.config.bearerTokens.lookup token)
  principalWithPermissions tenant true (auth.config.publishTenants.contains tenant)

def trustedTenant (tenant : String) : Except ApiError Principal :=
  principalWithPermissions tenant true (auth.config.publishTenants.contains tenant)

def proxyIdentity (identity : String) : Except ApiError Principal := do
  let mapping ← orUnauthorized (auth.config.proxyIdentities.lookup identity)
  principalWithPermissions mapping.tenantId mapping.subscribe mapping.publish

/-- The principal that verified claims name. -/
def claimedPrincipal (claims : List (String × ClaimValue)) : Except ApiError Principal := do
  let jwt := auth.config.jwt
  let tenant ← orUnauthorized ((claims.lookup jwt.tenantClaim).bind ClaimValue.asStr)
  let scopes ← orUnauthorized (claimScopes (claims.lookup jwt.scopeClaim))
  principalWithPermissions tenant (scopes.contains jwt.subscribeScope)
    (scopes.contains jwt.publishScope)

def jwtPrincipal (library : TokenLibrary) (now : ℕ) (value : String) :
    Except ApiError Principal := do
  let jwt := auth.config.jwt
  let token ← parseBearer value
  let header ← orUnauthorized (library.header token)
  let kid ← orUnauthorized header.kid
  let allowed ← orUnauthorized (configuredAlgorithms jwt.algorithms)
  if header.alg ∉ allowed then throw .unauthorized
  let key ← orUnauthorized (auth.jwks.lookup kid)
  let validation : Validation :=
    ⟨allowed, jwt.clockSkewSecs, jwt.audience, jwt.issuer, ["exp", "iss", "aud"]⟩
  let claims ← orUnauthorized (library.decode now token key validation)
  auth.claimedPrincipal claims

def authenticateHttp (library : TokenLibrary) (now : ℕ) (headers : Credentials)
    (requestedTenant : Option String) : Except ApiError Principal :=
  match auth.config.mode with
  | .disabled => auth.disabledPrincipal requestedTenant
  | .staticBearer => do auth.staticToken (← httpAuthorization headers)
  | .trustedHeader => do auth.trustedTenant (← httpHeader headers auth.config.tenantHeader)
  | .jwt => do auth.jwtPrincipal library now (← httpAuthorization headers)
  | .proxyMtls => do auth.proxyIdentity (← httpHeader headers auth.config.proxyIdentityHeader)

def authenticateGrpc (library : TokenLibrary) (now : ℕ) (metadata : Credentials)
    (requestedTenant : Option String) : Except ApiError Principal :=
  match auth.config.mode with
  | .disabled => auth.disabledPrincipal requestedTenant
  | .staticBearer => do auth.staticToken (← grpcMetadata metadata "authorization")
  | .trustedHeader => do auth.trustedTenant (← grpcMetadata metadata auth.config.tenantHeader)
  | .jwt => do auth.jwtPrincipal library now (← grpcMetadata metadata "authorization")
  | .proxyMtls => do
    auth.proxyIdentity (← grpcMetadata metadata auth.config.proxyIdentityHeader)

def authorizeSubscribe (principal : Principal) : Except ApiError Unit :=
  if principal.canSubscribe then .ok () else .error .forbidden

def authorizePublish (principal : Principal) : Except ApiError Unit :=
  if principal.canPublish then .ok () else .error .forbidden

end Authenticator

/-- A request may name the tenant of its credentials, or none. -/
def authorizeTenant (principal : Principal) (requested : Option String) : Except ApiError Unit :=
  match requested.filter (fun tenant => !tenant.isEmpty) with
  | none => .ok ()
  | some tenant => if tenant = principal.tenantId then .ok () else .error .forbidden

end KafkaEdgeRouter.Api
