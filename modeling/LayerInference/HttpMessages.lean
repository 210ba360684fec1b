import LayerInference.JsonText

/-!
# HTTP messages

Requests and responses as both services hold them once they are read, and the
responses that a server makes up by itself.
-/

namespace LayerInference.HttpMessages

open ByteStrings JsonText

structure HttpRequest where
  method : Bytes
  path : Bytes
  headers : List (Bytes × Bytes) := []
  body : Bytes := []
  deriving DecidableEq

structure HttpResponse where
  statusCode : ℤ := 200
  reason : Bytes := ascii "OK"
  contentType : Bytes := ascii "application/json"
  body : Bytes := []
  keepAlive : Bool := false
  deriving DecidableEq

def makeJsonResponse (statusCode : ℤ) (reason json : Bytes) : HttpResponse where
  statusCode := statusCode
  reason := reason
  contentType := ascii "application/json"
  body := json

def makeBinaryResponse (statusCode : ℤ) (reason body : Bytes) : HttpResponse where
  statusCode := statusCode
  reason := reason
  contentType := ascii "application/octet-stream"
  body := body

end LayerInference.HttpMessages
