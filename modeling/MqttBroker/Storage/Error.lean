/-!
Why a durable repository could not do what it was asked.
-/
namespace MqttBroker

inductive StorageError where
  | database (detail : String)
  | keyspace (detail : String)
  | serialize (detail : String)
  | deserialize (detail : String)
  | write (detail : String)
  | read (detail : String)
  | sync (detail : String)
  deriving DecidableEq, Repr

def StorageError.message : StorageError → String
  | .database detail => "failed to open persistence database: " ++ detail
  | .keyspace detail => "failed to open keyspace: " ++ detail
  | .serialize detail => "serialization error: " ++ detail
  | .deserialize detail => "deserialization error: " ++ detail
  | .write detail => "write error: " ++ detail
  | .read detail => "read error: " ++ detail
  | .sync detail => "sync error: " ++ detail

end MqttBroker
