import EntityForge.Template.Basic

/-!
# The templates of the artifacts

One template for each of the five files that are written for an entity.
-/

namespace EntityForge.Template.Catalog

/-- Text as it stands. -/
private def t (s : String) : Segment :=
  .text s

/-- The value of a name. -/
private def v (name : String) : Segment :=
  .value name

/-- A line of a template. -/
private def line (segments : Line) : Block :=
  .part (.line segments)

/-- The class that a new record is checked against. -/
def createDto : Template where
  name := "create-dto"
  blocks := [
    line [t "import \x7b IsNotEmpty, IsOptional, IsDate \x7d from 'class-validator';"],
    line [],
    line [t "export class ", v "create_dto", t " \x7b"],
    line [v "create_fields"],
    line [t "\x7d"]]

/-- The class that a change of a record is checked against. -/
def updateDto : Template where
  name := "update-dto"
  blocks := [
    line [t "import \x7b IsNotEmpty, IsOptional, IsDate \x7d from 'class-validator';"],
    line [],
    line [t "export class ", v "update_dto", t " \x7b"],
    line [v "update_fields"],
    line [t "\x7d"]]

/-- The class of the entity itself. -/
def entity : Template where
  name := "entity"
  blocks := [
    line [t "export class ", v "model_name", t " \x7b"],
    line [v "entity_fields"],
    line [t "\x7d"]]

/-- The class that reaches the stored records. Queries include every related model. -/
def service : Template where
  name := "service"
  blocks := [
    line [t "import \x7b Injectable \x7d from '@nestjs/common';"],
    line [t "import \x7b ", v "persistence_class", t " \x7d from '", v "persistence_import",
       t "';"],
    line [t "import \x7b ", v "create_dto", t " \x7d from './dto/create-", v "model_lower",
       t ".dto';"],
    line [t "import \x7b ", v "update_dto", t " \x7d from './dto/update-", v "model_lower",
       t ".dto';"],
    line [],
    line [t "@Injectable()"],
    line [t "export class ", v "service_class", t " \x7b"],
    line [t "  constructor(private readonly ", v "accessor", t ": ", v "persistence_class",
       t ") \x7b\x7d"],
    line [],
    line [t "  create(", v "create_param", t ": ", v "create_dto", t ") \x7b"],
    line [t "    return this.", v "accessor", t ".", v "model_lower", t ".create(\x7b data: ",
       v "create_param", t " \x7d);"],
    line [t "  \x7d"],
    line [],
    line [t "  findAll() \x7b"],
    .choice "includes"
      [
        .line [t "    return this.", v "accessor", t ".", v "model_lower", t ".findMany(\x7b"],
        .line [t "      include: \x7b"],
        .repeated "include" "includes" [
          [t "        ", v "include", t ": true,"]],
        .line [t "      \x7d,"],
        .line [t "    \x7d);"]]
      [
        .line [t "    return this.", v "accessor", t ".", v "model_lower", t ".findMany();"]],
    line [t "  \x7d"],
    line [],
    line [t "  findOne(id: number) \x7b"],
    .choice "includes"
      [
        .line [t "    return this.", v "accessor", t ".", v "model_lower", t ".findUnique(\x7b"],
        .line [t "      where: \x7b id: id \x7d,"],
        .line [t "      include: \x7b"],
        .repeated "include" "includes" [
          [t "        ", v "include", t ": true,"]],
        .line [t "      \x7d,"],
        .line [t "    \x7d);"]]
      [
        .line [t "    return this.", v "accessor", t ".", v "model_lower",
           t ".findUnique(\x7b where: \x7b id: id \x7d \x7d);"]],
    line [t "  \x7d"],
    line [],
    line [t "  update(id: number, ", v "update_param", t ": ", v "update_dto", t ") \x7b"],
    line [t "    return this.", v "accessor", t ".", v "model_lower",
       t ".update(\x7b where: \x7b id: id \x7d, data: ", v "update_param", t " \x7d);"],
    line [t "  \x7d"],
    line [],
    line [t "  remove(id: number) \x7b"],
    line [t "    return this.", v "accessor", t ".", v "model_lower",
       t ".delete(\x7b where: \x7b id: id \x7d \x7d);"],
    line [t "  \x7d"],
    line [t "\x7d"]]

/-- The class that ties controller, service and persistence together. -/
def module : Template where
  name := "module"
  blocks := [
    line [t "import \x7b Module \x7d from '@nestjs/common';"],
    line [t "import \x7b ", v "controller_class", t " \x7d from './", v "model_lower",
       t ".controller';"],
    line [t "import \x7b ", v "service_class", t " \x7d from './", v "model_lower",
       t ".service';"],
    line [t "import \x7b ", v "persistence_class", t " \x7d from '", v "persistence_import",
       t "';"],
    line [],
    line [t "@Module(\x7b"],
    line [t "  controllers: [", v "controller_class", t "],"],
    line [t "  providers: [", v "service_class", t ", ", v "persistence_class", t "],"],
    line [t "\x7d)"],
    line [t "export class ", v "module_class", t " \x7b\x7d"]]

/-- The five templates. -/
def all : List Template :=
  [createDto, updateDto, entity, service, module]

/-- Renders the template with a name. -/
def render (name : String) (context : Context) : Except Fault String :=
  match all.find? (·.name = name) with
  | some template => template.render context
  | none => .error (.unknown name)

end EntityForge.Template.Catalog
