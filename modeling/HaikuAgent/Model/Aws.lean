import HaikuAgent.Model.Json

/-!
# Requests to the service (`aws.cpp`)
-/

set_option autoImplicit false

namespace HaikuAgent.Model.Aws

open HaikuAgent.Foundation
open HaikuAgent.Model.Json

/-- The body of `aws::send_reply`; the payload is JSON in a string.
SRC: aws.cpp:326-333 -/
def sendReplyBody (messageId payloadJson replyId : Bytes) : Value :=
  objOf
    [(lit "MessageId", .string messageId),
     (lit "Payload", .string payloadJson),
     (lit "ReplyId", .string replyId)]

/-- The body of `aws::get_messages`.
SRC: aws.cpp:310-317 -/
def getMessagesBody (instanceId requestId : Bytes) : Value :=
  objOf
    [(lit "Destination", .string instanceId),
     (lit "MessagesRequestId", .string requestId),
     (lit "VisibilityTimeoutInSeconds", intNumber 10)]

end HaikuAgent.Model.Aws
