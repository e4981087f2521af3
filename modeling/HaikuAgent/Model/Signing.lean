import Mathlib.Data.List.Sort
import HaikuAgent.Model.Mgs
import HaikuAgent.Model.Time
import HaikuAgent.Model.WebSocket

/-!
# Signed requests (`aws.cpp`, `s3.cpp`, `mgs.cpp`)

The requests of the agent with their SigV4 headers, and the text that `http::perform` writes
for one. SHA-256 and HMAC are parameters.
-/

set_option autoImplicit false

namespace HaikuAgent.Model.Signing

open HaikuAgent.Foundation

/-- `mbedtls_sha256` and `mbedtls_md_hmac`. -/
structure Digests where
  sha256 : Bytes → Bytes
  hmacSha256 : Bytes → Bytes → Bytes

/-- SRC: aws.h:21-25 -/
structure Credentials where
  accessKey : Bytes
  secretKey : Bytes
  token : Bytes

/-- SRC: aws.h:27 -/
def Credentials.empty (creds : Credentials) : Bool := creds.accessKey = [] ∨ creds.secretKey = []

/-- SRC: util.cpp:104-113 -/
def toHex (raw : Bytes) : Bytes := raw.flatMap Mgs.hexPair

/-- SRC: util.cpp:16-20 -/
def sha256Hex (digests : Digests) (data : Bytes) : Bytes := toHex (digests.sha256 data)

/-- SRC: util.cpp:126-132 -/
def amzDate (epoch : ℤ) : Bytes :=
  let tm := Time.gmt epoch
  Time.padded 4 tm.year ++ Time.padded 2 tm.month ++ Time.padded 2 tm.day ++ lit "T" ++
    Time.padded 2 tm.hour ++ Time.padded 2 tm.min ++ Time.padded 2 tm.sec ++ lit "Z"

/-- SRC: util.cpp:134-139 -/
def amzDatestamp (epoch : ℤ) : Bytes :=
  let tm := Time.gmt epoch
  Time.padded 4 tm.year ++ Time.padded 2 tm.month ++ Time.padded 2 tm.day

def upperDigits : Bytes := lit "0123456789ABCDEF"

/-- SRC: util.cpp:286-302 -/
def uriEncode (s : Bytes) (encodeSlash : Bool) : Bytes :=
  s.flatMap fun c =>
    let unreserved := (65 ≤ c && c ≤ 90) || (97 ≤ c && c ≤ 122) || (48 ≤ c && c ≤ 57) ||
      c == 45 || c == 95 || c == 46 || c == 126
    if unreserved || (c == 47 && !encodeSlash) then [c]
    else [37, upperDigits.getD (c >>> 4).toNat 0, upperDigits.getD (c &&& 0x0F).toNat 0]

/-! ## SigV4 -/

/-- SRC: aws.cpp:170-176 -/
def signingKey (digests : Digests) (secret datestamp region service : Bytes) : Bytes :=
  let kDate := digests.hmacSha256 (lit "AWS4" ++ secret) datestamp
  let kRegion := digests.hmacSha256 kDate region
  let kService := digests.hmacSha256 kRegion service
  digests.hmacSha256 kService (lit "aws4_request")

/-- `std::sort` by the names.
SRC: aws.cpp:190-191, 242-243, s3.cpp:76-77 -/
def sortHeaders (headers : List (Bytes × Bytes)) : List (Bytes × Bytes) :=
  headers.insertionSort fun a b => a.1 ≤ b.1

/-- The canonical lines and the names of headers that are sorted.
SRC: aws.cpp:193-198, 245-250, s3.cpp:79-84 -/
def canonicalHeaders (headers : List (Bytes × Bytes)) : Bytes × Bytes :=
  (headers.flatMap fun h => h.1 ++ lit ":" ++ h.2 ++ lit "\n", join (headers.map Prod.fst) (lit ";"))

/-- SRC: aws.cpp:203, 254, s3.cpp:89 -/
def scopeOf (datestamp region service : Bytes) : Bytes :=
  datestamp ++ lit "/" ++ region ++ lit "/" ++ service ++ lit "/aws4_request"

/-- SRC: aws.cpp:204-205, 255-256, s3.cpp:90-91 -/
def stringToSign (digests : Digests) (amzdate scope canonicalRequest : Bytes) : Bytes :=
  lit "AWS4-HMAC-SHA256\n" ++ amzdate ++ lit "\n" ++ scope ++ lit "\n" ++ sha256Hex digests canonicalRequest

/-- `signed_names` and `string_to_sign`. -/
structure Signed where
  names : Bytes
  stringToSign : Bytes

/-- The value of the `Authorization` header.
SRC: aws.cpp:206-215, 258-275, s3.cpp:92-108 -/
def authorization (digests : Digests) (creds : Credentials) (datestamp region service : Bytes) (signed : Signed) :
    Bytes :=
  let scope := scopeOf datestamp region service
  let signature := toHex (digests.hmacSha256 (signingKey digests creds.secretKey datestamp region service)
    signed.stringToSign)
  lit "AWS4-HMAC-SHA256 Credential=" ++ creds.accessKey ++ lit "/" ++ scope ++ lit ", SignedHeaders=" ++
    signed.names ++ lit ", Signature=" ++ signature

/-- The header of the session token, if there is one. -/
def tokenHeader (name : Bytes) (creds : Credentials) : List (Bytes × Bytes) :=
  if creds.token ≠ [] then [(name, creds.token)] else []

/-- SRC: aws.cpp:178-205 -/
def sigv4Signed (digests : Digests) (method service region : Bytes) (creds : Credentials)
    (host path query payloadSha256Hex : Bytes) (now : ℤ) : Signed :=
  let amzdate := amzDate now
  let signedHeaders := sortHeaders ([(lit "host", host), (lit "x-amz-date", amzdate)] ++
    tokenHeader (lit "x-amz-security-token") creds)
  let (canonical, signedNames) := canonicalHeaders signedHeaders
  let canonicalRequest := method ++ lit "\n" ++ path ++ lit "\n" ++ query ++ lit "\n" ++ canonical ++ lit "\n" ++
    signedNames ++ lit "\n" ++ payloadSha256Hex
  { names := signedNames
    stringToSign := stringToSign digests amzdate (scopeOf (amzDatestamp now) region service) canonicalRequest }

/-- SRC: aws.cpp:178-217 -/
def sigv4Headers (digests : Digests) (method service region : Bytes) (creds : Credentials)
    (host path query payloadSha256Hex : Bytes) (now : ℤ) : List (Bytes × Bytes) :=
  let signed := sigv4Signed digests method service region creds host path query payloadSha256Hex now
  [(lit "X-Amz-Date", amzDate now)] ++ tokenHeader (lit "X-Amz-Security-Token") creds ++
    [(lit "Authorization", authorization digests creds (amzDatestamp now) region service signed)]

/-! ## Requests -/

/-- The members of `http::Request` that the request text depends on; a body that is streamed
from a file is its content.
SRC: http.h:14-32 -/
structure Request where
  method : Bytes
  host : Bytes
  path : Bytes
  headers : List (Bytes × Bytes)
  body : Bytes

/-- The request up to its body, of which `bodyLen` bytes are announced.
SRC: http.cpp:550-562 -/
def wireHead (req : Request) (bodyLen : ℕ) : Bytes :=
  let hasLen := req.headers.any fun h => lower h.1 == lit "content-length"
  req.method ++ lit " " ++ req.path ++ lit " HTTP/1.1\r\n" ++
    lit "Host: " ++ req.host ++ lit "\r\n" ++
    lit "Connection: close\r\n" ++
    req.headers.flatMap (fun h => h.1 ++ lit ": " ++ h.2 ++ lit "\r\n") ++
    (if !hasLen ∧ (0 < bodyLen ∨ req.method = lit "POST" ∨ req.method = lit "PUT") then
      lit "Content-Length: " ++ toStringNat bodyLen ++ lit "\r\n"
    else []) ++
    lit "\r\n"

/-- What `http::perform` writes, with a body that is not streamed.
SRC: http.cpp:550-563 -/
def requestText (req : Request) : Bytes := wireHead req req.body.length ++ req.body

/-- SRC: aws.cpp:15 -/
def kJsonContentType : Bytes := lit "application/x-amz-json-1.1"

/-- SRC: aws.cpp:17-19 -/
def endpoint (service region : Bytes) : Bytes := service ++ lit "." ++ region ++ lit ".amazonaws.com"

/-- SRC: aws.cpp:227-256 -/
def callSigned (digests : Digests) (service targetPrefix operation region : Bytes) (creds : Credentials)
    (body : Bytes) (now : ℤ) : Signed :=
  let host := endpoint service region
  let target := targetPrefix ++ lit "." ++ operation
  let amzdate := amzDate now
  let signedHeaders := sortHeaders
    ([(lit "content-type", kJsonContentType), (lit "host", host), (lit "x-amz-date", amzdate),
      (lit "x-amz-target", target)] ++ tokenHeader (lit "x-amz-security-token") creds)
  let (canonical, signedNames) := canonicalHeaders signedHeaders
  let canonicalRequest := lit "POST\n/\n\n" ++ canonical ++ lit "\n" ++ signedNames ++ lit "\n" ++
    sha256Hex digests body
  { names := signedNames
    stringToSign := stringToSign digests amzdate (scopeOf (amzDatestamp now) region service) canonicalRequest }

/-- SRC: aws.cpp:227-277 -/
def callRequest (digests : Digests) (service targetPrefix operation region : Bytes) (creds : Credentials)
    (body : Bytes) (now : ℤ) : Request :=
  let signed := callSigned digests service targetPrefix operation region creds body now
  { method := lit "POST"
    host := endpoint service region
    path := lit "/"
    headers :=
      [(lit "Content-Type", kJsonContentType), (lit "X-Amz-Date", amzDate now),
        (lit "X-Amz-Target", targetPrefix ++ lit "." ++ operation)] ++
        tokenHeader (lit "X-Amz-Security-Token") creds ++
        [(lit "Authorization", authorization digests creds (amzDatestamp now) region service signed),
          (lit "User-Agent", lit "haiku-mgmt-agent")]
    body }

/-- The request that `aws::call` performs, or its error.
SRC: aws.cpp:219-279 -/
def call (digests : Digests) (service targetPrefix operation region : Bytes) (creds : Credentials) (body : Bytes)
    (now : ℤ) : Except Bytes Request :=
  if creds.empty then .error (lit "no credentials available")
  else .ok (callRequest digests service targetPrefix operation region creds body now)

/-- SRC: s3.cpp:14 -/
def kUnsignedPayload : Bytes := lit "UNSIGNED-PAYLOAD"

/-- SRC: s3.cpp:65 -/
def bucketHost (bucket region : Bytes) : Bytes := bucket ++ lit ".s3." ++ region ++ lit ".amazonaws.com"

/-- SRC: s3.cpp:66 -/
def objectPath (key : Bytes) : Bytes := lit "/" ++ uriEncode key false

/-- SRC: s3.cpp:65-91 -/
def buildSigned (digests : Digests) (method region : Bytes) (creds : Credentials) (bucket key : Bytes) (now : ℤ) :
    Signed :=
  let amzdate := amzDate now
  let signedHeaders := sortHeaders
    ([(lit "host", bucketHost bucket region), (lit "x-amz-content-sha256", kUnsignedPayload),
      (lit "x-amz-date", amzdate)] ++ tokenHeader (lit "x-amz-security-token") creds)
  let (canonical, signedNames) := canonicalHeaders signedHeaders
  let canonicalRequest := method ++ lit "\n" ++ objectPath key ++ lit "\n\n" ++ canonical ++ lit "\n" ++
    signedNames ++ lit "\n" ++ kUnsignedPayload
  { names := signedNames
    stringToSign := stringToSign digests amzdate (scopeOf (amzDatestamp now) region (lit "s3")) canonicalRequest }

/-- `s3::build_request`; `content` is what its caller gives it as the body.
SRC: s3.cpp:62-111, 40-45 -/
def buildRequest (digests : Digests) (method region : Bytes) (creds : Credentials) (bucket key : Bytes) (now : ℤ)
    (contentType content : Bytes) : Request :=
  let signed := buildSigned digests method region creds bucket key now
  { method
    host := bucketHost bucket region
    path := objectPath key
    headers :=
      [(lit "X-Amz-Content-Sha256", kUnsignedPayload), (lit "X-Amz-Date", amzDate now)] ++
        tokenHeader (lit "X-Amz-Security-Token") creds ++
        (if method = lit "PUT" ∧ contentType ≠ [] then [(lit "Content-Type", contentType)] else []) ++
        [(lit "Authorization", authorization digests creds (amzDatestamp now) region (lit "s3") signed),
          (lit "User-Agent", lit "haiku-mgmt-agent")]
    body := content }

/-! ## Channels -/

/-- SRC: mgs.cpp:166-168 -/
def mgsEndpoint (region : Bytes) : Bytes := lit "ssmmessages." ++ region ++ lit ".amazonaws.com"

/-- SRC: mgs.cpp:170-176 -/
def wsUpgradeHeaders (digests : Digests) (creds : Credentials) (region host path query : Bytes) (now : ℤ) :
    List (Bytes × Bytes) :=
  sigv4Headers digests (lit "GET") (lit "ssmmessages") region creds host path query (sha256Hex digests []) now

/-- The request of `create_channel`; `payload` is its JSON body.
SRC: mgs.cpp:178-206 -/
def createChannel (digests : Digests) (creds : Credentials) (region channelType channelId payload : Bytes)
    (now : ℤ) : Request :=
  let host := mgsEndpoint region
  let path := lit "/v1/" ++ channelType ++ lit "/" ++ channelId
  { method := lit "POST"
    host
    path
    headers := [(lit "Content-Type", lit "application/json")] ++
      sigv4Headers digests (lit "POST") (lit "ssmmessages") region creds host path [] (sha256Hex digests payload)
        now ++
      [(lit "User-Agent", lit "haiku-mgmt-agent")]
    body := payload }

/-- The path of the data channel.
SRC: session.cpp:221 -/
def dataChannelPath (sessionId : Bytes) : Bytes := lit "/v1/data-channel/" ++ sessionId

/-- SRC: session.cpp:222 -/
def dataChannelQuery : Bytes := lit "role=publish_subscribe"

/-- The upgrade request of `run_session`; `key` is the key of `connect`.
SRC: session.cpp:220-226, websocket.cpp:106-113 -/
def dataChannelUpgrade (digests : Digests) (creds : Credentials) (region sessionId key : Bytes) (now : ℤ) : Bytes :=
  let host := mgsEndpoint region
  let path := dataChannelPath sessionId
  WebSocket.upgradeRequest host (path ++ lit "?" ++ dataChannelQuery) key
    (wsUpgradeHeaders digests creds region host path dataChannelQuery now)

end HaikuAgent.Model.Signing
