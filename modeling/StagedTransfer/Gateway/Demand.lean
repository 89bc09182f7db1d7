import StagedTransfer.Http.Message
import StagedTransfer.Token.Access
import StagedTransfer.Transfer.Call

/-!
# What calls ask for

Each call is one request, to the gateway or to the object store behind it. The gateway has an
address below which each cluster has its own; the store is asked at the very addresses that the
gateway has given, and never sees the access token.
-/

namespace StagedTransfer

open Http Wire

/-- A request before it is known whose token goes with it. -/
structure Demand where
  method     : Method
  url        : String
  /-- The pairs that are added to the query, if the demand has any use for them. -/
  query      : Option (List (String × String))
  body       : Body
  authorized : Bool

/-- The request that a demand amounts to, unless its address is none or its token cannot be sent. -/
def Demand.request? (d : Demand) (token : Option String) : Option Request := do
  let url ← Url.parse? d.url
  let authorization := token.map ("Bearer " ++ ·)
  if authorization.all Request.isFieldValue then
    return ⟨d.method, (d.query.map url.withPairs).getD url, authorization, d.body⟩
  else none

/-! ### The gateway -/

structure Gateway where
  baseUrl    : String
  /-- The cluster on which files lie. -/
  system     : String
  /-- The size up to which a file goes in a single request. -/
  smallLimit : Nat

namespace Gateway

def usualLimit : Nat := 1048576

def address (g : Gateway) (resource : String) : String :=
  String.ofList (g.baseUrl.toList.reverse.dropWhile (· = '/')).reverse ++ "/" ++ resource

/-- The name of the cluster as a segment of an address. -/
def segment (g : Gateway) : String :=
  String.ofList (Percent.encode Percent.isPlain g.system.toList)

def transferResource (g : Gateway) (operation : String) : String :=
  "filesystem/" ++ g.segment ++ "/transfer/" ++ operation

def directResource (g : Gateway) (operation : String) : String :=
  "filesystem/" ++ g.segment ++ "/ops/" ++ operation

def jobResource (g : Gateway) (jobId : Int64) : String :=
  "compute/" ++ g.segment ++ "/jobs/" ++ toString jobId.toInt

/-- Asks for what a resource holds. -/
def lookUp (g : Gateway) (resource : String) (query : List (String × String)) : Demand :=
  ⟨.get, g.address resource, some query, .empty, true⟩

/-- Sends a message to a resource. -/
def submit (g : Gateway) (resource json : String) : Demand :=
  ⟨.post, g.address resource, none, .content (some "application/json") (Utf8.encode json), true⟩

def delete (g : Gateway) (resource : String) (query : Option (List (String × String))) : Demand :=
  ⟨.delete, g.address resource, query, .empty, true⟩

def sendWhole (g : Gateway) (dir name : String) (content : Bytes) : Demand :=
  ⟨.post, g.address (g.directResource "upload"), some [("path", dir)],
    .file ⟨"file", name, content⟩, true⟩

end Gateway

/-! ### The store -/

namespace Store

def put (url : String) (data : Bytes) : Demand :=
  ⟨.put, url, none, .content none data, false⟩

def complete (url manifest : String) : Demand :=
  ⟨.post, url, none, .content (some "application/xml") (Utf8.encode manifest), false⟩

def fetch (url : String) : Demand :=
  ⟨.get, url, none, .empty, false⟩

end Store

/-! ### Calls -/

namespace Gateway

/-- The account is named only if there is one. -/
def removal (path : String) (account : Option String) : List (String × String) :=
  ("path", path) :: (account.map fun a => ("account", a)).toList

/-- What a call asks for. The content is that of the file that the call sends, if it sends one. -/
def demand (g : Gateway) (content : Bytes) : Call → Demand
  | .uploadPlan r           => g.submit (g.transferResource "upload") (Json.Message.encode r)
  | .downloadPlan r         => g.submit (g.transferResource "download") (Json.Message.encode r)
  | .job jobId              => g.lookUp (g.jobResource jobId) []
  | .cancelJob jobId        => g.delete (g.jobResource jobId) none
  | .copy r                 => g.submit (g.transferResource "cp") (Json.Message.encode r)
  | .move r                 => g.submit (g.transferResource "mv") (Json.Message.encode r)
  | .remove path account    => g.delete (g.transferResource "rm") (some (removal path account))
  | .compress r             => g.submit (g.transferResource "compress") (Json.Message.encode r)
  | .extract r              => g.submit (g.transferResource "extract") (Json.Message.encode r)
  | .stat path              => g.lookUp (g.directResource "stat") [("path", path)]
  | .uploadSmall _ dir name => g.sendWhole dir name content
  | .downloadSmall path _   => g.lookUp (g.directResource "download") [("path", path)]
  | .complete url manifest  => Store.complete url manifest
  | .fetch url _            => Store.fetch url

end Gateway

end StagedTransfer
