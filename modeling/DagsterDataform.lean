import DagsterDataform.Api
import DagsterDataform.Builder
import DagsterDataform.Resolver
import DagsterDataform.Invocation
import DagsterDataform.Machine
import DagsterDataform.Steps
import DagsterDataform.Catalog
import DagsterDataform.Linearization
import DagsterDataform.Calls
import DagsterDataform.Consistency
