/-!
# Error codes

Every refusal of the library carries one code. A code has a name, a number within its family, and
for the statements that define tables a phase.
-/

namespace WideColumn

/-- What a refusal is about. -/
inductive ErrorCode where
  | invalidTableName
  | invalidSchema
  | invalidValidatorRule
  | invalidValue
  | unsetKey
  | unsetRequired
  | invalidQuery
  | invalidOperator
  | invalidOrderBy
  | invalidLimit
  | invalidProjection
  | invalidUpdateOperation
  | hookRejected
  | schemaMismatch
  | schemaQuery
  | tableCreate
  | tableAlter
  | tableDrop
  | indexCreate
  | indexDrop
  | viewCreate
  | viewDrop
  | store
  deriving DecidableEq, Repr

namespace ErrorCode

/-- Every code, family by family. -/
def all : List ErrorCode := [
  .invalidTableName, .invalidSchema, .invalidValidatorRule, .invalidValue, .unsetKey,
  .unsetRequired, .invalidQuery, .invalidOperator, .invalidOrderBy, .invalidLimit,
  .invalidProjection, .invalidUpdateOperation, .hookRejected, .schemaMismatch, .schemaQuery,
  .tableCreate, .tableAlter, .tableDrop, .indexCreate, .indexDrop, .viewCreate, .viewDrop, .store]

/-- The name of a code. -/
def name : ErrorCode → String
  | .invalidTableName => "INVALID_TABLE_NAME"
  | .invalidSchema => "INVALID_SCHEMA"
  | .invalidValidatorRule => "INVALID_VALIDATOR_RULE"
  | .invalidValue => "INVALID_VALUE"
  | .unsetKey => "UNSET_KEY"
  | .unsetRequired => "UNSET_REQUIRED"
  | .invalidQuery => "INVALID_QUERY"
  | .invalidOperator => "INVALID_OPERATOR"
  | .invalidOrderBy => "INVALID_ORDER_BY"
  | .invalidLimit => "INVALID_LIMIT"
  | .invalidProjection => "INVALID_PROJECTION"
  | .invalidUpdateOperation => "INVALID_UPDATE_OPERATION"
  | .hookRejected => "HOOK_REJECTED"
  | .schemaMismatch => "SCHEMA_MISMATCH"
  | .schemaQuery => "SCHEMA_QUERY_ERROR"
  | .tableCreate => "TABLE_CREATE_ERROR"
  | .tableAlter => "TABLE_ALTER_ERROR"
  | .tableDrop => "TABLE_DROP_ERROR"
  | .indexCreate => "INDEX_CREATE_ERROR"
  | .indexDrop => "INDEX_DROP_ERROR"
  | .viewCreate => "MATVIEW_CREATE_ERROR"
  | .viewDrop => "MATVIEW_DROP_ERROR"
  | .store => "DB_ERROR"

/-- The number of a code within its family. -/
def number : ErrorCode → String
  | .invalidTableName => "SCHEMA_001"
  | .invalidSchema => "SCHEMA_002"
  | .invalidValidatorRule => "SCHEMA_003"
  | .invalidValue => "VALIDATION_001"
  | .unsetKey => "VALIDATION_002"
  | .unsetRequired => "VALIDATION_003"
  | .invalidQuery => "QUERY_001"
  | .invalidOperator => "QUERY_002"
  | .invalidOrderBy => "QUERY_003"
  | .invalidLimit => "QUERY_004"
  | .invalidProjection => "QUERY_005"
  | .invalidUpdateOperation => "QUERY_006"
  | .hookRejected => "QUERY_007"
  | .schemaMismatch => "MIGRATION_001"
  | .schemaQuery => "DDL_001"
  | .tableCreate => "DDL_002"
  | .tableAlter => "DDL_003"
  | .tableDrop => "DDL_004"
  | .indexCreate => "DDL_005"
  | .indexDrop => "DDL_006"
  | .viewCreate => "DDL_007"
  | .viewDrop => "DDL_008"
  | .store => "DB_001"

/-- The code with a given name. -/
def ofName? (s : String) : Option ErrorCode := all.find? (·.name == s)

/-- The code is about a query that cannot be compiled. -/
def isQuery : ErrorCode → Bool
  | .invalidQuery | .invalidOperator | .invalidOrderBy | .invalidLimit | .invalidProjection
  | .invalidUpdateOperation => true
  | _ => false

end ErrorCode

/-- The phases in which table definitions are read and changed. -/
inductive Phase where
  | schemaQuery
  | create
  | alter
  | drop
  | indexCreate
  | indexDrop
  | viewCreate
  | viewDrop
  deriving DecidableEq, Repr

namespace Phase

/-- Every phase. -/
def all : List Phase :=
  [.schemaQuery, .create, .alter, .drop, .indexCreate, .indexDrop, .viewCreate, .viewDrop]

/-- The words of a phase's name. -/
def words : Phase → List String
  | .schemaQuery => ["schema", "query"]
  | .create => ["create"]
  | .alter => ["alter"]
  | .drop => ["drop"]
  | .indexCreate => ["index", "create"]
  | .indexDrop => ["index", "drop"]
  | .viewCreate => ["matview", "create"]
  | .viewDrop => ["matview", "drop"]

/-- The name of a phase. -/
def name (p : Phase) : String := "_".intercalate p.words

/-- The phase with a given name. -/
def ofName? (s : String) : Option Phase := all.find? (·.name == s)

/-- The code of a failure in a phase. -/
def code : Phase → ErrorCode
  | .schemaQuery => .schemaQuery
  | .create => .tableCreate
  | .alter => .tableAlter
  | .drop => .tableDrop
  | .indexCreate => .indexCreate
  | .indexDrop => .indexDrop
  | .viewCreate => .viewCreate
  | .viewDrop => .viewDrop

end Phase

/-- The phase that a code belongs to. -/
def ErrorCode.phase? (c : ErrorCode) : Option Phase := Phase.all.find? fun p => p.code == c

theorem Phase.code_phase? (p : Phase) : p.code.phase? = some p := by cases p <;> decide

end WideColumn
