import Brainkit.Library.GoText

set_option autoImplicit false

namespace Brainkit.Providers

open GoText

-- string, int and map[string]string, the types of the fields of the config structs.
inductive FieldType where
  | text
  | int
  | headers
deriving DecidableEq

-- A map[string]string lists each key once, in the order of the keys; none is the nil map.
structure Headers where
  entries : List (GoString × GoString)
  ordered : (entries.map Prod.fst).Pairwise (· < ·)

inductive FieldValue where
  | text (value : GoString)
  | int (value : Int64)
  | headers (values : Option Headers)

def FieldValue.type : FieldValue → FieldType
  | text _ => .text
  | int _ => .int
  | headers _ => .headers

inductive ConfigType where
  | openAIProviderConfig
  | anthropicProviderConfig
  | googleProviderConfig
  | mistralProviderConfig
  | cohereProviderConfig
  | groqProviderConfig
  | perplexityProviderConfig
  | deepSeekProviderConfig
  | fireworksProviderConfig
  | togetherAIProviderConfig
  | xaiProviderConfig
  | azureProviderConfig
  | bedrockProviderConfig
  | vertexProviderConfig
  | huggingFaceProviderConfig
  | cerebrasProviderConfig
  | libSQLVectorConfig
  | pgVectorConfig
  | mongoDBVectorConfig
  | pineconeVectorConfig
  | qdrantVectorConfig
  | chromaVectorConfig
  | upstashVectorConfig
  | astraVectorConfig
  | elasticsearchVectorConfig
  | openSearchVectorConfig
  | turbopufferVectorConfig
  | cloudflareVectorConfig
  | duckDBVectorConfig
  | lanceVectorConfig
  | convexVectorConfig
  | couchbaseVectorConfig
  | s3VectorsVectorConfig
  | inMemoryStorageConfig
  | libSQLStorageConfig
  | postgresStorageConfig
  | mongoDBStorageConfig
  | upstashStorageConfig
  | cloudflareD1StorageConfig
  | cloudflareKVStorageConfig
  | clickHouseStorageConfig
  | convexStorageConfig
  | couchbaseStorageConfig
  | dynamoDBStorageConfig
  | lanceStorageConfig
  | mssqlStorageConfig
  | duckDBStorageConfig

abbrev Fields := List (String × FieldType)

def keyed : Fields := [("APIKey", .text), ("BaseURL", .text), ("Headers", .headers)]

def texts (names : List String) : Fields := names.map fun name => (name, .text)

-- The fields of each struct, in order. None has a tag, so these are the names in the JSON.
def ConfigType.fields : ConfigType → Fields
  | openAIProviderConfig => texts ["APIKey", "BaseURL", "Organization", "Project"] ++ [("Headers", .headers)]
  | anthropicProviderConfig => texts ["APIKey", "AuthToken", "BaseURL"] ++ [("Headers", .headers)]
  | googleProviderConfig => keyed
  | mistralProviderConfig => keyed
  | cohereProviderConfig => keyed
  | groqProviderConfig => keyed
  | perplexityProviderConfig => keyed
  | deepSeekProviderConfig => keyed
  | fireworksProviderConfig => keyed
  | togetherAIProviderConfig => keyed
  | xaiProviderConfig => keyed
  | azureProviderConfig => texts ["APIKey", "ResourceName", "BaseURL"] ++ [("Headers", .headers)]
  | bedrockProviderConfig => texts ["Region", "AccessKey", "SecretKey"] ++ [("Headers", .headers)]
  | vertexProviderConfig => texts ["Project", "Location", "APIKey"] ++ [("Headers", .headers)]
  | huggingFaceProviderConfig => keyed
  | cerebrasProviderConfig => keyed
  | libSQLVectorConfig => texts ["URL", "AuthToken", "SyncURL"]
  | pgVectorConfig =>
      texts ["ConnectionString", "Host"] ++ [("Port", .int)] ++ texts ["Database", "User", "Password", "SchemaName", "VectorType"]
  | mongoDBVectorConfig => texts ["URI", "DBName", "EmbeddingFieldPath"]
  | pineconeVectorConfig => texts ["APIKey", "Cloud", "Region"]
  | qdrantVectorConfig => texts ["URL", "APIKey"]
  | chromaVectorConfig => [("Host", .text), ("Port", .int)]
  | upstashVectorConfig => texts ["URL", "Token"]
  | astraVectorConfig => texts ["Token", "Endpoint", "Keyspace"]
  | elasticsearchVectorConfig => texts ["URL", "Username", "Password", "APIKey"]
  | openSearchVectorConfig => texts ["URL", "Username", "Password"]
  | turbopufferVectorConfig => texts ["APIKey"]
  | cloudflareVectorConfig => texts ["AccountID", "APIToken"]
  | duckDBVectorConfig => texts ["Path"]
  | lanceVectorConfig => texts ["Path"]
  | convexVectorConfig => texts ["URL", "AdminKey"]
  | couchbaseVectorConfig => texts ["ConnectionString", "Username", "Password", "BucketName"]
  | s3VectorsVectorConfig => texts ["VectorBucketName", "Region", "AccessKey", "SecretKey"]
  | inMemoryStorageConfig => []
  | libSQLStorageConfig => texts ["URL", "AuthToken"] ++ [("MaxRetries", .int), ("InitialBackoffMs", .int)]
  | postgresStorageConfig =>
      texts ["ConnectionString", "Host"] ++ [("Port", .int)] ++ texts ["Database", "User", "Password", "SchemaName"]
  | mongoDBStorageConfig => texts ["URI", "DBName"]
  | upstashStorageConfig => texts ["URL", "Token"]
  | cloudflareD1StorageConfig => texts ["AccountID", "APIToken", "DatabaseID"]
  | cloudflareKVStorageConfig => texts ["AccountID", "APIToken", "NamespaceID"]
  | clickHouseStorageConfig => texts ["URL", "Database", "User", "Password"]
  | convexStorageConfig => texts ["URL", "AdminKey"]
  | couchbaseStorageConfig => texts ["ConnectionString", "Username", "Password", "BucketName"]
  | dynamoDBStorageConfig => texts ["Region", "TableName", "AccessKey", "SecretKey"]
  | lanceStorageConfig => texts ["Path"]
  | mssqlStorageConfig => texts ["ConnectionString"]
  | duckDBStorageConfig => texts ["Path"]

structure Config (type : ConfigType) where
  entries : List (String × FieldValue)
  shaped : (entries.map fun entry => (entry.1, entry.2.type)) = type.fields

-- The Config of a registration is any; none is nil.
structure Registration where
  type : GoString
  config : Option (Σ type : ConfigType, Config type)

structure Registry where
  aiProviders : GoString → Option Registration
  vectorStores : GoString → Option Registration
  storages : GoString → Option Registration

theorem fields_once (type : ConfigType) : (type.fields.map Prod.fst).Nodup := by
  cases type <;> decide

variable {type : ConfigType}

theorem Config.names (c : Config type) : c.entries.map Prod.fst = type.fields.map Prod.fst := by
  rw [← c.shaped, List.map_map]
  rfl

theorem Config.typed (c : Config type) {entry : String × FieldValue} (member : entry ∈ c.entries) :
    (entry.1, entry.2.type) ∈ type.fields := by
  rw [← c.shaped]
  exact List.mem_map_of_mem member

end Brainkit.Providers
